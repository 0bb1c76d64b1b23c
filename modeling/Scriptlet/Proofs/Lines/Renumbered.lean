import Scriptlet.Proofs.Errors
import Scriptlet.Proofs.Grammar.Names
import Scriptlet.Proofs.Parsing.Renumber
import Scriptlet.Proofs.Running.Mirror
import Scriptlet.Proofs.Typing.Relabeled

/-! The same line in two sessions that agree but for the numbers of functions without a name. The
line is read with other numbers, checked by types under other names and run on a machine with other
names, and it comes to the same end. -/

namespace Scriptlet

noncomputable def Variation.renumbering (numbers : Nat → Nat) (h : Function.Injective numbers) :
    Variation where
  changes change := change = .renumber numbers
  rename := renumbered numbers
  known _ := True
  injective := renumbered_injective h
  unnamed := by
    rintro change rfl
    rfl
  known_of_fixed _ := trivial

/-- Whatever is given another number, the functions that there are keep theirs. -/
noncomputable def Variation.keeping (numbers : Nat → Nat) (h : Function.Injective numbers) :
    Variation :=
  { renumbering numbers h with
    known := fun name => renumbered numbers name = name
    known_of_fixed := id }

/-- The same value, but for the numbers of functions, or the same error. -/
inductive SameAnswer (v : Variation) :
    Except ScriptError Value → Except ScriptError Value → Prop
  | value {value value' : Value} (h : value.Varied v value') : SameAnswer v (.ok value) (.ok value')
  | error (error : ScriptError) : SameAnswer v (.error error) (.error error)

structure Session.Varied (v : Variation) (session session' : Session) : Prop where
  checker : session.checker = session'.checker.map (Checker.renamed v.rename)
  machine : session.machine.Varied v session'.machine

namespace Session

variable {session session' : Session} {source : String} {program : Program} {fuel : Nat}

theorem unnamed_check (session : Session) (program : Program) :
    (session.check program).1.unnamed = session.unnamed := by
  unfold check
  split
  · rfl
  · simp only
    split <;> rfl

theorem unnamed_compile (session : Session) (source : String) :
    (session.compile source).1.unnamed = (Program.ofSource source session.unnamed).unnamed := by
  simp only [compile]
  split
  · rfl
  · rename_i read _
    have hcheck := unnamed_check
      ({ session with unnamed := (Program.ofSource source session.unnamed).unnamed }.observe
        (Program.ofSource source session.unnamed).events) read
    split
    all_goals
      rename_i heq
      rw [heq] at hcheck
      exact hcheck

@[simp] theorem unnamed_run (session : Session) (fuel : Nat) (program : Program) :
    (session.run fuel program).1.unnamed = session.unnamed := by
  unfold run
  simp only
  split <;> rfl

theorem unnamed_eval (session : Session) (fuel : Nat) (source : String) :
    (session.eval fuel source).1.unnamed = (Program.ofSource source session.unnamed).unnamed := by
  rw [← unnamed_compile]
  simp only [eval]
  split
  all_goals
    rename_i heq
    rw [heq]
  exact unnamed_run ..

theorem compile_plain (h : (session.compile source).2 = .ok program) :
    ∀ node ∈ program.nodes, ∀ name ∈ node.plainNames, IsPlain name := by
  cases hread : (Program.ofSource source session.unnamed).result with
  | error e => simp [compile, hread] at h
  | ok read =>
      have hplain := Program.ofSource_plain hread
      have fresh := Program.ofSource_fresh hread
      simp only [compile, hread, check, observe] at h
      cases hchecker : session.checker with
      | none =>
          simp only [hchecker, Except.ok.injEq] at h
          exact h ▸ hplain
      | some checker =>
          cases hcheck : (read.check checker).result with
          | error e => simp [hchecker, hcheck] at h
          | ok _ =>
              simp only [hchecker, hcheck, Except.ok.injEq] at h
              intro node hmem name hname
              refine hplain (node.relabel .untyped) ?_ name ?_
              · rw [← Program.check_untyped fresh checker, Program.nodes_relabel, h]
                exact List.mem_map_of_mem hmem
              · rwa [Node.plainNames_relabel]

end Session

section Line

variable {numbers : Nat → Nat} {distance : Nat} {v : Variation} {session session' : Session}
  {source : String} {program : Program}

theorem Session.check_varied (hchange : v.changes (.renumber numbers))
    (h : session.Varied v session')
    (hplain : ∀ node ∈ program.nodes, ∀ name ∈ node.plainNames, IsPlain name) :
    (session.check (program.relabel (.renumber numbers))).2 =
        (session'.check program).2.map (Program.relabel (.renumber numbers)) ∧
      (session.check (program.relabel (.renumber numbers))).1.Varied v
        (session'.check program).1 := by
  have hrename : (Relabel.renumber numbers).unnamed = v.rename := v.unnamed hchange
  have hfaithful : (Relabel.renumber numbers).Faithful :=
    ⟨fun _ => rfl, by rw [hrename]; exact v.injective⟩
  have hfixes : Fixes (Relabel.renumber numbers).unnamed program.nodes :=
    fun node hnode name hname => renumbered_plain (hplain node hnode name hname)
  have hchecker := h.checker
  rw [← hrename] at hchecker
  cases hknown : session'.checker with
  | none =>
      rw [hknown, Option.map_none] at hchecker
      simp only [check, hchecker, hknown]
      exact ⟨rfl, h⟩
  | some checker =>
      rw [hknown, Option.map_some] at hchecker
      have hchecked := Program.check_relabel hfaithful program hfixes checker
      simp only [check, hchecker, hknown, hchecked, observe]
      cases hresult : (program.check checker).result with
      | ok _ =>
          simp only [Checked.relabel, hresult, mapError_ok, hrename]
          exact ⟨rfl, rfl, h.machine.of_events _ _⟩
      | error e =>
          simp only [Checked.relabel, hresult, mapError_error, hrename]
          exact ⟨rfl, rfl, h.machine.of_events _ _⟩

theorem Session.compile_varied (hchange : v.changes (.renumber numbers))
    (h : session.Varied v session') (hunnamed : session.unnamed = session'.unnamed + distance)
    (hnumbers : ∀ number, session'.unnamed ≤ number →
      number < (Program.ofSource source session'.unnamed).unnamed →
        numbers number = number + distance) :
    (session.compile source).2 =
        (session'.compile source).2.map (Program.relabel (.renumber numbers)) ∧
      (session.compile source).1.Varied v (session'.compile source).1 := by
  have hreading := (Program.ofSource_later source).2 hnumbers
  rw [← hunnamed] at hreading
  have hplain := @compile_plain session' source
  simp only [compile, hreading, observe]
  cases hread : (Program.ofSource source session'.unnamed).result with
  | error e => exact ⟨rfl, h.checker, h.machine.of_events _ _⟩
  | ok read =>
      have hstart : Session.Varied v
          { session with
            unnamed := (Program.ofSource source session'.unnamed).unnamed + distance
            machine := { session.machine with events := session.machine.events ++
              (Program.ofSource source session'.unnamed).events.toArray } }
          { session' with
            unnamed := (Program.ofSource source session'.unnamed).unnamed
            machine := { session'.machine with events := session'.machine.events ++
              (Program.ofSource source session'.unnamed).events.toArray } } :=
        ⟨h.checker, h.machine.of_events _ _⟩
      have hchecked := check_varied hchange hstart (Program.ofSource_plain hread)
      have hmap : (Except.ok read : Except CompileError Program).map
          (Program.relabel (.renumber numbers)) = .ok (read.relabel (.renumber numbers)) := rfl
      rw [hmap]
      dsimp only
      generalize Session.check _ (read.relabel (.renumber numbers)) = checked at hchecked ⊢
      generalize Session.check _ read = checked' at hchecked ⊢
      obtain ⟨after, result⟩ := checked
      obtain ⟨after', result'⟩ := checked'
      obtain ⟨rfl, hafter⟩ := hchecked
      cases result' with
      | error e => exact ⟨rfl, hafter⟩
      | ok program => exact ⟨rfl, hafter⟩

variable {c : Comparison}

theorem Session.run_varied (hchanges : ∀ change, c.changes change ↔ change = .renumber numbers)
    (hslack : c.slack = 0) (hsuits : c.Suits program.nodes)
    (h : c.Machines session.machine session'.machine) (fuel : Nat) :
    SameAnswer c.toVariation (session.run fuel (program.relabel (.renumber numbers))).2
        (session'.run fuel program).2 ∧
      c.Machines (session.run fuel (program.relabel (.renumber numbers))).1.machine
        (session'.run fuel program).1.machine := by
  have hmirrors := (Run.mirrored c fuel).executeAll Machine.globals ((hchanges _).mpr rfl) hsuits
    .nothing session.machine session'.machine h
  have hstatements : (program.relabel (.renumber numbers)).statements =
      program.statements.map (Stmt.relabel (.renumber numbers)) := rfl
  rw [hslack, Nat.zero_add] at hmirrors
  unfold run Program.run
  rw [hstatements]
  cases hrun : Run.executeAll fuel Machine.globals .nothing
      (program.statements.map (Stmt.relabel (.renumber numbers))) session.machine with
  | ok flow after =>
      obtain ⟨flow', after', hrun', hflow, hafter⟩ := hmirrors.of_ok hrun
      simp only [hrun']
      exact ⟨.value hflow.value, hafter⟩
  | error reason after =>
      obtain ⟨hne, -⟩ | ⟨reason', after', hrun', hreason, hafter⟩ := hmirrors.of_error hrun
      · exact absurd rfl hne
      · simp only [hrun']
        cases hreason with
        | @fault change fault span hchange =>
            obtain rfl := (hchanges change).mp hchange
            exact ⟨.error _, hafter.varied.of_events _ _, hafter.outputs, hafter.transcripts⟩
        | outOfFuel => exact ⟨.error _, hafter⟩

theorem Session.eval_varied (hchanges : ∀ change, c.changes change ↔ change = .renumber numbers)
    (hslack : c.slack = 0) (h : session.Varied c.toVariation session')
    (hmachines : c.Machines session.machine session'.machine)
    (hunnamed : session.unnamed = session'.unnamed + distance)
    (hnumbers : ∀ number, session'.unnamed ≤ number →
      number < (Program.ofSource source session'.unnamed).unnamed →
        numbers number = number + distance)
    (hknown : ∀ program, (session'.compile source).2 = .ok program →
      ∀ decl, .fn decl ∈ program.nodes → c.known decl.name) (fuel : Nat) :
    SameAnswer c.toVariation (session.eval fuel source).2 (session'.eval fuel source).2 ∧
      (session.eval fuel source).1.Varied c.toVariation (session'.eval fuel source).1 ∧
      c.Machines (session.eval fuel source).1.machine (session'.eval fuel source).1.machine := by
  have hchange : c.changes (.renumber numbers) := (hchanges _).mpr rfl
  obtain ⟨hresult, hcompiled⟩ := compile_varied hchange h hunnamed hnumbers
  have hplain := @compile_plain session' source
  obtain ⟨events, hmachine⟩ := session.compile_machine source
  obtain ⟨events', hmachine'⟩ := session'.compile_machine source
  have hsame : c.Machines (session.compile source).1.machine
      (session'.compile source).1.machine := by
    rw [hmachine, hmachine']
    exact ⟨hmachines.varied.of_events _ _, hmachines.outputs, hmachines.transcripts⟩
  simp only [eval]
  generalize session.compile source = compiled at hresult hcompiled hsame
  generalize session'.compile source = compiled' at hresult hcompiled hsame hplain hknown
  obtain ⟨after, result⟩ := compiled
  obtain ⟨after', result'⟩ := compiled'
  obtain rfl : result = _ := hresult
  cases result' with
  | error e => exact ⟨.error _, hcompiled, hsame⟩
  | ok program =>
      have hsuits : c.Suits program.nodes := by
        refine ⟨fun node hnode name hname => ?_, hknown program rfl⟩
        rw [← c.unnamed hchange]
        exact renumbered_plain (hplain rfl node hnode name hname)
      obtain ⟨hanswer, hafter⟩ := run_varied hchanges hslack hsuits hsame fuel
      have hchecker : (after.run fuel (program.relabel (.renumber numbers))).1.checker =
          (after'.run fuel program).1.checker.map (Checker.renamed c.rename) := by
        rw [checker_run, checker_run]
        exact hcompiled.checker
      exact ⟨hanswer, ⟨hchecker, hafter.varied⟩, hafter⟩

end Line

end Scriptlet
