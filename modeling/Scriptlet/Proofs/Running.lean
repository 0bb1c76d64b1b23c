import Scriptlet.Eval
import Scriptlet.Proofs.Scopes

/-! How a run ends, as a relation between the machine before it and what comes out. Each way of
building runs has one rule, so that the end of a whole is read off the ends of its parts. -/

namespace Scriptlet

def Value.isAnswer (value : Value) : Builtin → Bool
  | .clock => value.kind = .int
  | .print | .println => value.kind = .nothing

/-- Runs programs one after another on one machine, each with its own fuel. -/
def Machine.runAll (machine : Machine) (programs : List (Nat × Program)) : Machine :=
  programs.foldl (fun machine program => (program.2.run program.1 machine).machine) machine

namespace Run

variable {α β : Type}

/-- A run that comes to a value ends in `ok`, and any other in `stop`. -/
def Ends (run : Run α) (machine : Machine) (ok : α → Machine → Prop)
    (stop : Stop → Machine → Prop) : Prop :=
  match run machine with
  | .ok value after => ok value after
  | .error reason after => stop reason after

def Settles (result : Except RuntimeFault α) (span : Span) (machine : Machine)
    (ok : α → Machine → Prop) (stop : Stop → Machine → Prop) : Prop :=
  match result with
  | .ok value => ok value machine
  | .error fault => stop (.fault ⟨fault, span⟩) machine

section Rules

variable {machine : Machine} {ok : α → Machine → Prop} {stop : Stop → Machine → Prop}

theorem Ends.mono {run : Run α} {ok' : α → Machine → Prop} {stop' : Stop → Machine → Prop}
    (h : Ends run machine ok stop) (hok : ∀ value after, ok value after → ok' value after)
    (hstop : ∀ reason after, stop reason after → stop' reason after) :
    Ends run machine ok' stop' := by
  unfold Ends at h ⊢
  split at h
  · exact hok _ _ h
  · exact hstop _ _ h

theorem Ends.and {run : Run α} {ok' : α → Machine → Prop} {stop' : Stop → Machine → Prop}
    (h : Ends run machine ok stop) (h' : Ends run machine ok' stop') :
    Ends run machine (fun value after => ok value after ∧ ok' value after)
      (fun reason after => stop reason after ∧ stop' reason after) := by
  cases heq : run machine <;> simp only [Ends, heq] at h h' ⊢ <;> exact ⟨h, h'⟩

theorem Ends.of_ok {run : Run α} {value : α} {after : Machine} (h : Ends run machine ok stop)
    (heq : run machine = .ok value after) : ok value after := by
  simpa only [Ends, heq] using h

theorem Ends.of_error {run : Run α} {reason : Stop} {after : Machine}
    (h : Ends run machine ok stop) (heq : run machine = .error reason after) :
    stop reason after := by
  simpa only [Ends, heq] using h

theorem ends_of_results {run : Run α} (hok : ∀ value after, run machine = .ok value after →
    ok value after) (hstop : ∀ reason after, run machine = .error reason after →
    stop reason after) : Ends run machine ok stop := by
  unfold Ends
  split
  · exact hok _ _ ‹_›
  · exact hstop _ _ ‹_›

@[simp] theorem ends_pure {value : α} :
    Ends (pure value) machine ok stop ↔ ok value machine := Iff.rfl

@[simp] theorem ends_throw {reason : Stop} :
    Ends (throw reason : Run α) machine ok stop ↔ stop reason machine := Iff.rfl

@[simp] theorem ends_fail {fault : RuntimeFault} {span : Span} :
    Ends (fail fault span : Run α) machine ok stop ↔
      stop (.fault ⟨fault, span⟩) machine := Iff.rfl

@[simp] theorem ends_bind {run : Run β} {next : β → Run α} :
    Ends (run >>= next) machine ok stop ↔
      Ends run machine (fun value after => Ends (next value) after ok stop) stop := by
  simp only [Ends, bind, EStateM.bind]
  cases run machine <;> rfl

@[simp] theorem ends_ofExcept {span : Span} {result : Except RuntimeFault α} :
    Ends (ofExcept span result) machine ok stop ↔ Settles result span machine ok stop := by
  cases result <;> rfl

@[simp] theorem ends_nested {name : String} {body : Run α} :
    Ends (nested name body) machine ok stop ↔
      Ends body (machine.entered name) (fun value after => ok value after.left)
        (fun reason after => stop reason after.left) := by
  simp only [Ends, nested]
  cases body (machine.entered name) <;> rfl

end Rules

section Steps

variable {machine : Machine} {stop : Stop → Machine → Prop}

@[simp] theorem ends_lookup {scope : ScopeId} {name : String}
    {ok : Option Value → Machine → Prop} :
    Ends (lookup scope name) machine ok stop ↔
      ok (machine.scopes.get? scope name) machine := Iff.rfl

@[simp] theorem ends_isBound {scope : ScopeId} {name : String} {ok : Bool → Machine → Prop} :
    Ends (isBound scope name) machine ok stop ↔
      ok (machine.scopes.contains scope name) machine := Iff.rfl

@[simp] theorem ends_define {scope : ScopeId} {name : String} {value : Value}
    {ok : Unit → Machine → Prop} :
    Ends (define scope name value) machine ok stop ↔
      ok () { machine with scopes := machine.scopes.define scope name value } := Iff.rfl

@[simp] theorem ends_assign {scope : ScopeId} {name : String} {value : Value}
    {ok : Bool → Machine → Prop} :
    Ends (assign scope name value) machine ok stop ↔
      match machine.scopes.resolve scope name with
      | some nearest =>
          ok true { machine with scopes := machine.scopes.define nearest name value }
      | none => ok false machine := by
  unfold Ends assign
  cases machine.scopes.resolve scope name <;> rfl

@[simp] theorem ends_inside {outer : ScopeId} {ok : ScopeId → Machine → Prop} :
    Ends (inside outer) machine ok stop ↔
      ok machine.scopes.size
        { machine with scopes := (machine.scopes.addInside outer).1 } := Iff.rfl

@[simp] theorem ends_closure {name : String} {decl : FnDecl} {scope : ScopeId}
    {ok : Value → Machine → Prop} :
    Ends (closure name decl scope) machine ok stop ↔
      ok (.function (.closure ⟨machine.nextIdentity, name, decl, scope⟩))
        { machine with nextIdentity := machine.nextIdentity + 1 } := Iff.rfl

@[simp] theorem ends_functionLiteral {name : String} {decl : FnDecl} {scope : ScopeId}
    {ok : Value → Machine → Prop} :
    Ends (functionLiteral name decl scope) machine ok stop ↔
      let identity := machine.nextIdentity
      let after := { machine with nextIdentity := identity + 1 }
      if decl.anonymous then ok (.function (.closure ⟨identity, name, decl, scope⟩)) after
      else
        let value := .function (.closure ⟨identity, name, decl, machine.scopes.size⟩)
        ok value { after with scopes := machine.scopes.enclose scope decl.name value } := by
  unfold functionLiteral
  cases decl.anonymous <;> exact Iff.rfl

theorem emit_eq (text : String) (span : Span) (machine : Machine) :
    emit text span machine =
      match machine.output.write text with
      | (output, true) =>
          .ok .nothing { machine with output, transcript := machine.transcript.map (· ++ text) }
      | (output, false) => .error (.fault ⟨.outputFull, span⟩) { machine with output } := by
  have hemit : emit text span machine =
      (if (machine.output.write text).2 then do
        modify fun machine => { machine with transcript := machine.transcript.map (· ++ text) }
        return .nothing
      else fail .outputFull span : Run Value)
        { machine with output := (machine.output.write text).1 } := rfl
  rw [hemit]
  cases machine.output.write text with
  | mk output fits => cases fits <;> rfl

theorem ends_emit {text : String} {span : Span} {ok : Value → Machine → Prop} :
    Ends (emit text span) machine ok stop ↔
      match machine.output.write text with
      | (output, true) =>
          ok .nothing { machine with output, transcript := machine.transcript.map (· ++ text) }
      | (output, false) => stop (.fault ⟨.outputFull, span⟩) { machine with output } := by
  rw [Ends, emit_eq]
  cases machine.output.write text with
  | mk output fits => cases fits <;> exact Iff.rfl

theorem ends_applyBuiltin {builtin : Builtin} {args : List Value} {span : Span}
    {ok : Value → Machine → Prop}
    (hok : ∀ value after, after.scopes = machine.scopes → value.isAnswer builtin → ok value after)
    (hstop : ∀ after, after.scopes = machine.scopes → stop (.fault ⟨.outputFull, span⟩) after) :
    Ends (applyBuiltin builtin args span) machine ok stop := by
  have hemit : ∀ text, (∀ after, after.scopes = machine.scopes → ok .nothing after) →
      Ends (emit text span) machine ok stop := by
    intro text hnothing
    refine ends_emit.mpr ?_
    split
    · exact hnothing _ rfl
    · exact hstop _ rfl
  cases builtin with
  | clock => exact hok _ _ rfl rfl
  | print => exact hemit _ fun after hafter => hok _ after hafter rfl
  | println => exact hemit _ fun after hafter => hok _ after hafter rfl

theorem ends_bindParams {scope : ScopeId} {params : List Param} {args : List Value}
    {ok : Unit → Machine → Prop} :
    Ends (bindParams scope params args) machine ok stop ↔
      ok () { machine with scopes := machine.scopes.defineParams scope params args } := by
  unfold bindParams Scopes.defineParams
  induction params.zip args generalizing machine with
  | nil => exact Iff.rfl
  | cons entry rest ih => exact ih

theorem bindParams_run (scope : ScopeId) (params : List Param) (args : List Value)
    (machine : Machine) : bindParams scope params args machine =
      .ok () { machine with scopes := machine.scopes.defineParams scope params args } := by
  have hends : (bindParams scope params args).Ends machine
      (fun _ after => after = { machine with
        scopes := machine.scopes.defineParams scope params args }) (fun _ _ => False) :=
    ends_bindParams.mpr rfl
  unfold Ends at hends
  split at hends
  · rename_i hrun
    rw [hrun, hends]
  · exact hends.elim

@[simp] theorem ends_enter {closure : Closure} {args : List Value}
    {ok : ScopeId → Machine → Prop} :
    Ends (enter closure args) machine ok stop ↔
      ok machine.scopes.size
        { machine with
          scopes := machine.scopes.enter closure.scope closure.decl.params args } := by
  simp only [enter, ends_bind, ends_inside, ends_bindParams, ends_pure]
  exact Iff.rfl

end Steps

end Run

end Scriptlet
