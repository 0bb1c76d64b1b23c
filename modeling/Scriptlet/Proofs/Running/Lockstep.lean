import Mathlib.Data.List.Forall2
import Scriptlet.Proofs.Running

/-! Two runs side by side. From machines that agree the second run ends as the first one does, on
machines that agree again. What it means to agree is left open; the rules here say what the parts
of a run ask of it. -/

namespace Scriptlet

/-- What two runs side by side are held to. -/
structure Lockstep where
  machines : Machine → Machine → Prop
  stops : Stop → Stop → Prop
  /-- Where the first run stops so, nothing is said of the second one. -/
  excused : Stop → Prop

namespace Run

variable {α β α' β' : Type} {related : α → β → Prop} {related' : α' → β' → Prop} {l : Lockstep}

def InStep (l : Lockstep) (related : α → β → Prop) (run : Run α) (run' : Run β) : Prop :=
  ∀ machine machine', l.machines machine machine' → run.Ends machine
    (fun a after => ∃ b after', run' machine' = .ok b after' ∧ related a b ∧
      l.machines after after')
    (fun reason after => l.excused reason ∨ ∃ reason' after',
      run' machine' = .error reason' after' ∧ l.stops reason reason' ∧ l.machines after after')

theorem inStep_pure {a : α} {b : β} (h : related a b) : InStep l related (pure a) (pure b) :=
  fun _ machine' hmachine => ⟨b, machine', rfl, h, hmachine⟩

theorem inStep_throw {reason reason' : Stop} (h : l.stops reason reason') :
    InStep l related (throw reason) (throw reason') :=
  fun _ machine' hmachine => .inr ⟨reason', machine', rfl, h, hmachine⟩

theorem inStep_excused {reason : Stop} (h : l.excused reason) (run' : Run β) :
    InStep l related (throw reason) run' :=
  fun _ _ _ => .inl h

theorem inStep_bind {run : Run α} {run' : Run β} {next : α → Run α'} {next' : β → Run β'}
    (h : InStep l related run run')
    (hnext : ∀ a b, related a b → InStep l related' (next a) (next' b)) :
    InStep l related' (run >>= next) (run' >>= next') := by
  intro machine machine' hmachine
  refine ends_bind.mpr ((h machine machine' hmachine).mono ?_ ?_)
  · rintro a after ⟨b, after', hrun, hrelated, hafter⟩
    have hbind : (run' >>= next') machine' = next' b after' := by
      simp [bind, EStateM.bind, hrun]
    rw [hbind]
    exact hnext a b hrelated after after' hafter
  · rintro reason after (hstop | ⟨reason', after', hrun, hreason⟩)
    · exact .inl hstop
    · exact .inr ⟨reason', after', by simp [bind, EStateM.bind, hrun], hreason⟩

theorem inStep_step {run : Run α} {run' : Run β} (value : Machine → α) (value' : Machine → β)
    (after after' : Machine → Machine)
    (hrun : ∀ machine, run machine = .ok (value machine) (after machine))
    (hrun' : ∀ machine, run' machine = .ok (value' machine) (after' machine))
    (h : ∀ machine machine', l.machines machine machine' →
      related (value machine) (value' machine') ∧ l.machines (after machine) (after' machine')) :
    InStep l related run run' := by
  intro machine machine' hmachine
  obtain ⟨hvalue, hafter⟩ := h machine machine' hmachine
  simp only [Ends, hrun]
  exact ⟨_, _, hrun' machine', hvalue, hafter⟩

theorem inStep_assign {scope : ScopeId} {name : String} {value value' : Value}
    (hresolve : ∀ machine machine', l.machines machine machine' →
      machine.scopes.resolve scope name = machine'.scopes.resolve scope name)
    (hdefine : ∀ machine machine' nearest, l.machines machine machine' →
      l.machines { machine with scopes := machine.scopes.define nearest name value }
        { machine' with scopes := machine'.scopes.define nearest name value' }) :
    InStep l Eq (assign scope name value) (assign scope name value') := by
  intro machine machine' hmachine
  have hsame := hresolve machine machine' hmachine
  refine ends_assign.mpr ?_
  cases hfound : machine.scopes.resolve scope name with
  | none =>
      rw [hfound] at hsame
      exact ⟨false, machine', by simp [assign, ← hsame], rfl, hmachine⟩
  | some nearest =>
      rw [hfound] at hsame
      exact ⟨true, _, by simp only [assign, ← hsame], rfl, hdefine _ _ nearest hmachine⟩

theorem inStep_emit {related : Value → Value → Prop} (hnothing : related .nothing .nothing)
    {text text' : String} {span span' : Span}
    (hwrite : ∀ machine machine', l.machines machine machine' →
      (machine.output.write text).2 = (machine'.output.write text').2 ∧
        l.machines { machine with output := (machine.output.write text).1 }
          { machine' with output := (machine'.output.write text').1 })
    (hextend : ∀ machine machine', l.machines machine machine' →
      l.machines { machine with transcript := machine.transcript.map (· ++ text) }
        { machine' with transcript := machine'.transcript.map (· ++ text') })
    (hfull : l.stops (.fault ⟨.outputFull, span⟩) (.fault ⟨.outputFull, span'⟩)) :
    InStep l related (emit text span) (emit text' span') := by
  refine @inStep_bind _ _ _ _ Eq _ _ _ _ _ _
    (inStep_step (fun machine => (machine.output.write text).2)
      (fun machine => (machine.output.write text').2)
      (fun machine => { machine with output := (machine.output.write text).1 })
      (fun machine => { machine with output := (machine.output.write text').1 })
      (fun _ => rfl) (fun _ => rfl) hwrite) ?_
  rintro fits _ rfl
  split
  · refine @inStep_bind _ _ _ _ Eq _ _ _ _ _ _
      (inStep_step (fun _ => ()) (fun _ => ()) _ _ (fun _ => rfl) (fun _ => rfl)
        fun machine machine' h => ⟨rfl, hextend machine machine' h⟩) ?_
    exact fun _ _ _ => inStep_pure hnothing
  · exact inStep_throw hfull

theorem inStep_nested {name name' : String} {body : Run α} {body' : Run β}
    (h : InStep l related body body')
    (hentered : ∀ machine machine', l.machines machine machine' →
      l.machines (machine.entered name) (machine'.entered name'))
    (hleft : ∀ machine machine', l.machines machine machine' →
      l.machines machine.left machine'.left) :
    InStep l related (nested name body) (nested name' body') := by
  intro machine machine' hmachine
  refine ends_nested.mpr ((h _ _ (hentered _ _ hmachine)).mono ?_ ?_)
  · rintro a after ⟨b, after', hrun, hrelated, hafter⟩
    exact ⟨b, after'.left, by simp [nested, hrun], hrelated, hleft _ _ hafter⟩
  · rintro reason after (hstop | ⟨reason', after', hrun, hreason, hafter⟩)
    · exact .inl hstop
    · exact .inr ⟨reason', after'.left, by simp [nested, hrun], hreason, hleft _ _ hafter⟩

end Run

end Scriptlet
