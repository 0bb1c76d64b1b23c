import Scriptlet.Proofs.Names.Run
import Scriptlet.Proofs.Typing.Decided

/-! Scripts on one machine, each checked as if it were the first. Whatever the scripts before it
did and however they ended, a script finds every name that its check found. -/

namespace Scriptlet

namespace Session

variable {session after : Session} {source : String}

theorem check_error {program : Program} {error : TypeError}
    (h : session.check program = (after, .error error)) :
    after.checker = session.checker ∧ after.machine.scopes = session.machine.scopes := by
  unfold check at h
  split at h
  · simp at h
  · simp only at h
    split at h
    · simp at h
    · obtain ⟨rfl, _⟩ := Prod.mk.inj h
      exact ⟨rfl, rfl⟩

theorem check_typed {program checked : Program} {checker : Checker}
    (h : session.check program = (after, .ok checked)) (hchecker : session.checker = some checker)
    (fresh : Fresh program.nodes) :
    StmtsTyped checker.context checked.statements ∧
      after.checker = some (checker.afterAll checked.statements) ∧
      after.machine.scopes = session.machine.scopes := by
  unfold check at h
  simp only [hchecker] at h
  split at h
  · rename_i hresult
    obtain ⟨rfl, hchecked⟩ := Prod.mk.inj h
    obtain rfl := Except.ok.inj hchecked
    obtain ⟨typed, hafter⟩ := Program.check_typed fresh hresult
    exact ⟨typed, congrArg some hafter, rfl⟩
  · simp at h

theorem compile_error {error : CompileError} (h : session.compile source = (after, .error error)) :
    after.checker = session.checker ∧ after.machine.scopes = session.machine.scopes := by
  simp only [compile] at h
  split at h
  · obtain ⟨rfl, _⟩ := Prod.mk.inj h
    exact ⟨rfl, rfl⟩
  · split at h
    · rename_i hcheck
      obtain ⟨rfl, _⟩ := Prod.mk.inj h
      exact (check_error hcheck :)
    · simp at h

theorem compile_typed {program : Program} {checker : Checker}
    (h : session.compile source = (after, .ok program))
    (hchecker : session.checker = some checker) :
    StmtsTyped checker.context program.statements ∧
      after.checker = some (checker.afterAll program.statements) ∧
      after.machine.scopes = session.machine.scopes := by
  simp only [compile] at h
  split at h
  · simp at h
  · rename_i hread
    split at h
    · simp at h
    · rename_i hcheck
      obtain ⟨rfl, hprogram⟩ := Prod.mk.inj h
      obtain rfl := Except.ok.inj hprogram
      exact (check_typed hcheck hchecker (Program.ofSource_fresh hread) :)

end Session

def Site.top (checker : Checker) (fresh : Bool) : Site := ⟨.top checker fresh, [[Machine.globals]]⟩

section Top

variable {missed : String → Prop} {uses : Use → Prop} {checker : Checker} {scopes later : Scopes}

/-- The scopes when a script begins: all functions are kept, and at the top the names are bound
that the checker knows, but for those that are missed. -/
structure Scopes.Ready (missed : String → Prop) (uses : Use → Prop) (checker : Checker)
    (scopes : Scopes) : Prop where
  kept : scopes.Kept missed uses
  top : (Site.top checker false).Holds missed scopes Machine.globals

theorem Site.Holds.extend_top (h : (Site.top checker false).Holds missed scopes Machine.globals)
    {opens : ScopeId → String → Prop} (hextends : scopes.Extends opens later) :
    (Site.top checker false).Holds missed later Machine.globals :=
  ⟨Nat.lt_of_lt_of_le h.lt_size hextends.size_le, (hextends.path_eq h.lt_size).trans h.path,
    h.sizes, h.covers.mono hextends.binds fun _ hname => hname, .outer⟩

@[simp] theorem Session.checker_run (session : Session) (fuel : Nat) (program : Program) :
    (session.run fuel program).1.checker = session.checker := by
  unfold run
  simp only
  split <;> rfl

theorem Session.run_ends {session : Session} {program : Program} {fuel : Nat}
    (property : Scopes → Prop) (stop : Stop → Scopes → Prop)
    (h : (Run.executeAll fuel Machine.globals .nothing program.statements).Ends session.machine
      (fun _ after => property after.scopes)
      (fun reason after => property after.scopes ∧ stop reason after.scopes)) :
    property (session.run fuel program).1.machine.scopes ∧
      ∀ error, (session.run fuel program).2 = .error (.runtime error) →
        stop (.fault error) (session.run fuel program).1.machine.scopes := by
  unfold run Program.run
  cases hrun : Run.executeAll fuel Machine.globals .nothing program.statements session.machine with
  | ok flow machine => exact ⟨h.of_ok hrun, fun _ => nofun⟩
  | error reason machine =>
      have hstop := h.of_error hrun
      cases reason with
      | outOfFuel => exact ⟨hstop.1, fun _ => nofun⟩
      | fault error =>
          refine ⟨hstop.1, fun other heq => ?_⟩
          obtain rfl := ScriptError.runtime.inj (Except.error.inj heq)
          exact hstop.2

theorem Session.run_ready {session : Session} {program : Program}
    (ready : session.machine.scopes.Ready missed uses checker)
    (typed : StmtsTyped checker.context program.statements)
    (huses : ∀ use ∈ Stmt.allUses (.top checker false) program.statements, uses use) (fuel : Nat) :
    (session.run fuel program).1.machine.scopes.Kept missed uses ∧
      session.machine.scopes.Extends
        (Task.executeAll Machine.globals .nothing program.statements).opens
        (session.run fuel program).1.machine.scopes ∧
      ∀ error, (session.run fuel program).2 = .error (.runtime error) →
        (Stop.fault error).Excused missed (session.run fuel program).1.machine.scopes := by
  have hnames := names.kept.at fuel (Site.top checker false)
    (.executeAll Machine.globals .nothing program.statements) session.machine
    ⟨ready.kept, ready.top, typed, huses⟩
  have hframe := Task.frame fuel (.executeAll Machine.globals .nothing program.statements)
    session.machine
  obtain ⟨⟨hkept, hextends⟩, hstop⟩ := run_ends
    (fun after => after.Kept missed uses ∧ session.machine.scopes.Extends
      (Task.executeAll Machine.globals .nothing program.statements).opens after)
    (fun reason after => reason.Excused missed after)
    ((hnames.and hframe).mono (fun _ _ h => ⟨h.1.1, h.2.1⟩) fun _ _ h => ⟨⟨h.1.1, h.2⟩, h.1.2⟩)
  exact ⟨hkept, hextends, hstop⟩

theorem Machine.scopes_new (output : Output) (clock : Nat → Int64) :
    (Machine.new output clock).scopes =
      ⟨#[⟨Builtin.all.map fun builtin => (builtin.name, .function (.builtin builtin)), none⟩]⟩ := by
  simp [Machine.new, Builtin.all, Builtin.name, Scopes.define, Scopes.addRoot, Scopes.empty,
    Machine.globals, Bindings.insert]

theorem Machine.own?_new (output : Output) (clock : Nat → Int64) (id : ScopeId) (name : String) :
    (Machine.new output clock).scopes.own? id name =
      if id = Machine.globals then
        (Builtin.all.find? (·.name = name)).map fun builtin => .function (.builtin builtin)
      else none := by
  rw [Machine.scopes_new, ← Bindings.find?_map]
  cases id with
  | zero => simp [Scopes.own?, Machine.globals]
  | succ id => simp [Scopes.own?, Machine.globals]

theorem Machine.has_new (output : Output) (clock : Nat → Int64) (name : String) :
    Bindings.has (Builtin.all.map fun builtin => (builtin.name, builtin.signature)) name ↔
      (Machine.new output clock).scopes.binds Machine.globals name := by
  simp only [Bindings.has, Bindings.find?_map, Scopes.binds, Machine.own?_new, if_true]
  simp

theorem Machine.holds_new (output : Output) (clock : Nat → Int64) (missed : String → Prop)
    (fresh : Bool) :
    (Site.top .new fresh).Holds missed (Machine.new output clock).scopes Machine.globals := by
  have hbound := Machine.has_new output clock
  have houter : (Machine.new output clock).scopes.outer? Machine.globals = none := by
    rw [Machine.scopes_new]
    rfl
  refine ⟨?_, ?_, rfl, ?_, ?_⟩
  · rw [Machine.scopes_new]
    exact Nat.one_pos
  · rw [Scopes.path_of_root houter]
    rfl
  · exact .top fun name hname => .inl ((hbound name).mp hname)
  · cases fresh with
    | false => exact .outer
    | true => exact .own (fun name hname => (hbound name).mpr hname) .outer

theorem Machine.kept_new (output : Output) (clock : Nat → Int64) (missed : String → Prop)
    (uses : Use → Prop) : (Machine.new output clock).scopes.Kept missed uses := by
  intro id name value hvalue
  rw [Machine.own?_new] at hvalue
  split at hvalue
  · obtain ⟨builtin, _, rfl⟩ := Option.map_eq_some_iff.mp hvalue
    trivial
  · simp at hvalue

theorem Machine.ready_new (output : Output) (clock : Nat → Int64) (missed : String → Prop)
    (uses : Use → Prop) : (Machine.new output clock).scopes.Ready missed uses .new :=
  ⟨Machine.kept_new output clock missed uses, Machine.holds_new output clock missed false⟩

end Top

section Alone

/-- Scripts one after another, each checked as if it were the first. -/
def Session.evalAllAlone (session : Session) (scripts : List (Nat × String)) : Session :=
  scripts.foldl (fun session script => (session.evalAlone script.1 script.2).1) session

variable {session : Session}

/-- Between scripts, everything is ready for a script that is checked as if it were the first. -/
structure Session.Ready (session : Session) : Prop where
  checks : session.checker.isSome
  ready : session.machine.scopes.Ready (fun _ => False) (fun _ => True) .new

theorem Session.evalAlone_ready (h : session.Ready) (fuel : Nat) (source : String) :
    (session.evalAlone fuel source).1.Ready ∧
      ∀ error name, (session.evalAlone fuel source).2 = .error (.runtime error) →
        ¬(error.fault = .undefined name ∨ error.fault = .undeclaredTarget name) := by
  obtain ⟨checker, hsome⟩ := Option.isSome_iff_exists.mp h.checks
  have hchecker : session.checker.map (fun _ => Checker.new) = some .new := by simp [hsome]
  unfold evalAlone eval
  split
  · rename_i after error hcompile
    obtain ⟨hafter, hscopes⟩ := compile_error hcompile
    refine ⟨⟨by simp [hafter, hsome], hscopes ▸ h.ready⟩, fun _ _ => nofun⟩
  · rename_i after program hcompile
    obtain ⟨typed, hafter, hscopes⟩ := compile_typed hcompile hchecker
    have hready : after.machine.scopes.Ready (fun _ => False) (fun _ => True) .new :=
      hscopes ▸ h.ready
    obtain ⟨hkept, hextends, hresult⟩ :=
      Session.run_ready hready typed (fun _ _ => trivial) fuel
    refine ⟨⟨?_, hkept, hready.top.extend_top hextends⟩, fun error name heq hfault => ?_⟩
    · simp [checker_run, hafter]
    · exact (hresult error heq error name rfl hfault).1

theorem Session.evalAllAlone_ready (h : session.Ready) (scripts : List (Nat × String)) :
    (session.evalAllAlone scripts).Ready := by
  induction scripts generalizing session with
  | nil => exact h
  | cons script rest ih => exact ih (evalAlone_ready h script.1 script.2).1

/-- Scripts that start on a fresh machine, whatever each of them declares and however it ends:
none of them ever fails because a name is not found. -/
theorem Session.alone_finds_names (output : Output) (clock : Nat → Int64) (unnamed : Nat)
    (scripts : List (Nat × String)) (fuel : Nat) (source : String) (name : String) (span : Span) :
    let start := { Session.new true output clock with unnamed := unnamed }
    let result := ((start.evalAllAlone scripts).evalAlone fuel source).2
    result ≠ .error (.runtime ⟨.undefined name, span⟩) ∧
      result ≠ .error (.runtime ⟨.undeclaredTarget name, span⟩) := by
  have hstart : Session.Ready { Session.new true output clock with unnamed := unnamed } :=
    ⟨rfl, Machine.ready_new output clock _ _⟩
  have hresult := (evalAlone_ready (evalAllAlone_ready hstart scripts) fuel source).2
  exact ⟨fun heq => hresult _ name heq (.inl rfl), fun heq => hresult _ name heq (.inr rfl)⟩

end Alone

end Scriptlet
