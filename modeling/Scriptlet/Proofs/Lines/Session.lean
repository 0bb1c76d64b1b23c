import Scriptlet.Proofs.Lines.Read
import Scriptlet.Proofs.Names.Agreement
import Scriptlet.Proofs.Running.Moved
import Scriptlet.Proofs.Typing.Relabeled

/-! One line of a session. A line that is read as a statement alone is checked like the statement,
by what was known before it, and runs like the statement, on what was bound before it. -/

namespace Scriptlet

namespace Session

variable {session : Session} {stmt : Stmt} {line : String} {unnamed after : Nat}
  {checker : Checker}

/-- What a session takes a line for: the statement, moved to the beginning of the line, which has
the types of the node that a check of the statement makes. -/
structure ReadsAs (session : Session) (line : String) (stmt node : Stmt) : Prop where
  read : ∃ read, (Program.ofSource line session.unnamed).result = .ok ⟨[read]⟩ ∧
    stmt = read.relabel (.shift stmt.span.offset (stmt.span.line - 1))
  accepted : ∃ checked, (session.compile line).2 = .ok ⟨[checked]⟩ ∧
    node = checked.relabel (.shift stmt.span.offset (stmt.span.line - 1))

/-- A session between two lines, where the checker knows what the lines before declare. -/
structure At (session : Session) (unnamed : Nat) (checker : Checker) : Prop where
  unnamed : session.unnamed = unnamed
  checker : session.checker = some checker

theorem At.compile_line (h : session.At unnamed checker) (hread : stmt.ReadFrom line unnamed after)
    (haccepted : (checkStmt checker stmt).result = .ok ()) :
    ∃ compiled checked, session.compile line = (compiled, .ok ⟨[checked]⟩) ∧
      (checkStmt checker stmt).node =
        checked.relabel (.shift stmt.span.offset (stmt.span.line - 1)) ∧
      compiled.At after (checkStmt checker stmt).checker ∧
      ∀ machine : Machine, machine.Moved session.machine → machine.Moved compiled.machine := by
  obtain ⟨read, hresult, hafter, hmoved⟩ := hread
  obtain ⟨hunnamed, hchecker⟩ := h
  let move := Relabel.shift stmt.span.offset (stmt.span.line - 1)
  have hcheck : checkStmt checker stmt =
      (checkStmt checker read).relabel move (Stmt.relabel move) := by
    rw [← checkStmt_relabel (Relabel.shift_faithful _ _) read fixes_id, ← hmoved]
    exact congrArg (checkStmt · stmt) checker.renamed_id.symm
  have hafterwards : (checkStmt checker stmt).checker = (checkStmt checker read).checker := by
    rw [hcheck]
    exact Checker.renamed_id _
  have hown : (checkStmt checker read).result = .ok () := by
    rw [hcheck] at haccepted
    cases hown : (checkStmt checker read).result with
    | ok => rfl
    | error e => simp [Checked.relabel, hown, mapError_error] at haccepted
  have hprogram : Program.check ⟨[read]⟩ checker =
      ⟨⟨[(checkStmt checker read).node]⟩, (checkStmt checker read).checker, .ok ()⟩ := by
    simp [Program.check, checkStmts, hown]
  have hcompile : ∃ events, session.compile line =
      ({ session with
          checker := some (checkStmt checker read).checker
          unnamed := after
          machine := { session.machine with events := events } },
        .ok ⟨[(checkStmt checker read).node]⟩) := by
    refine ⟨session.machine.events ++ (Program.ofSource line unnamed).events.toArray ++
      [Event.checked 1].toArray, ?_⟩
    simp only [compile, hunnamed, hresult, hafter, check, observe, hchecker, hprogram]
    rfl
  obtain ⟨events, hcompile⟩ := hcompile
  refine ⟨_, _, hcompile, by rw [hcheck]; rfl, ⟨rfl, by rw [hafterwards]⟩, ?_⟩
  exact fun machine hmachine => hmachine.of_events _ events

theorem At.run (h : session.At unnamed checker) (fuel : Nat) (program : Program) :
    (session.run fuel program).1.At unnamed checker := by
  unfold Session.run
  simp only
  split <;> exact ⟨h.unnamed, h.checker⟩

theorem At.eval_line (h : session.At unnamed checker) (hread : stmt.ReadFrom line unnamed after)
    (haccepted : (checkStmt checker stmt).result = .ok ()) (fuel : Nat) :
    (session.eval fuel line).1.At after (checkStmt checker stmt).checker := by
  obtain ⟨compiled, checked, hcompile, _, hat, _⟩ := h.compile_line hread haccepted
  simp only [eval, hcompile]
  exact hat.run fuel _

theorem At.readsAs (h : session.At unnamed checker) (hread : stmt.ReadFrom line unnamed after)
    (haccepted : (checkStmt checker stmt).result = .ok ()) :
    session.ReadsAs line stmt (checkStmt checker stmt).node := by
  obtain ⟨compiled, checked, hcompile, hnode, _⟩ := h.compile_line hread haccepted
  obtain ⟨read, hresult, _, hmoved⟩ := hread
  exact ⟨⟨read, by rw [h.unnamed]; exact hresult, hmoved⟩, checked, by rw [hcompile], hnode⟩

/-- A line runs like its statement: it comes to the same value or to the same fault, and leaves the
machine in the same state, unless there is too little fuel for the statement. -/
theorem At.eval_mirrors (h : session.At unnamed checker)
    (hread : stmt.ReadFrom line unnamed after)
    (haccepted : (checkStmt checker stmt).result = .ok ()) {machine : Machine}
    (hmachine : machine.Moved session.machine) {fuel fuel' : Nat} (hfuel : fuel ≤ fuel') :
    (Run.executeAll fuel Machine.globals .nothing [(checkStmt checker stmt).node]).Ends machine
      (fun flow after => ∃ value, (session.eval fuel' line).2 = .ok value ∧
        flow.value.Moved value ∧ after.Moved (session.eval fuel' line).1.machine)
      (fun reason after => ∀ error, reason = .fault error → ∃ error',
        (session.eval fuel' line).2 = .error (.runtime error') ∧ error.fault = error'.fault ∧
          after.Moved (session.eval fuel' line).1.machine) := by
  obtain ⟨compiled, checked, hcompile, hnode, _, hmoved⟩ := h.compile_line hread haccepted
  have hslack : (Comparison.moved (fuel' - fuel)).slack + fuel = fuel' := Nat.sub_add_cancel hfuel
  have hmirrors := (Run.mirrored (.moved (fuel' - fuel)) fuel).executeAll Machine.globals
    ⟨stmt.span.offset, stmt.span.line - 1, rfl⟩ (Variation.moved_suits (Stmt.allNodes [checked]))
    .nothing machine compiled.machine ((Machine.moved_iff _).mp (hmoved machine hmachine))
  simp only [List.map_singleton, ← hnode, hslack] at hmirrors
  simp only [eval, hcompile, Session.run, Program.run]
  refine hmirrors.mono ?_ ?_
  · rintro flow after ⟨flow', after', hrun, hflow, hafter⟩
    simp only [hrun]
    exact ⟨_, rfl, Value.moved_iff.mpr hflow.value, (Machine.moved_iff _).mpr hafter⟩
  · rintro reason after hstop error rfl
    obtain ⟨-, hreason⟩ | ⟨reason', after', hrun, hreason, hafter⟩ := hstop
    · cases hreason
    · cases hreason
      simp only [hrun]
      exact ⟨_, rfl, rfl, ((Machine.moved_iff _).mpr hafter).of_events _ _⟩

end Session

theorem Session.compile_checked {session compiled : Session} {checker : Checker}
    {source : String} {program checked : Program} (hchecker : session.checker = some checker)
    (hread : (Program.ofSource source session.unnamed).result = .ok program)
    (h : session.compile source = (compiled, .ok checked)) :
    (checkStmts checker program.statements).result = .ok () ∧
      checked.statements = (checkStmts checker program.statements).node ∧
      compiled.machine.Moved session.machine := by
  simp only [compile, hread, check, observe, hchecker, Program.check] at h
  cases hresult : (checkStmts checker program.statements).result with
  | error e => simp [hresult] at h
  | ok =>
      simp only [hresult, Prod.mk.injEq, Except.ok.injEq] at h
      obtain ⟨rfl, rfl⟩ := h
      exact ⟨rfl, rfl, (Machine.Moved.refl session.machine).of_events _ _⟩

section Run

variable {session whole : Session} {fuel : Nat} {program : Program}

theorem Session.run_eq_ok {value : Value} (h : session.run fuel program = (whole, .ok value)) :
    ∃ flow, Run.executeAll fuel Machine.globals .nothing program.statements session.machine =
      .ok flow whole.machine ∧ flow.value = value := by
  unfold run Program.run at h
  cases hrun : Run.executeAll fuel Machine.globals .nothing program.statements session.machine with
  | ok flow after =>
      simp only [hrun, Prod.mk.injEq, Except.ok.injEq] at h
      obtain ⟨rfl, rfl⟩ := h
      exact ⟨flow, rfl, rfl⟩
  | error reason after => cases reason <;> simp [hrun] at h

theorem Session.run_eq_runtime {error : RuntimeError}
    (h : session.run fuel program = (whole, .error (.runtime error))) :
    ∃ after events, Run.executeAll fuel Machine.globals .nothing program.statements
      session.machine = .error (.fault error) after ∧ whole.machine = { after with events } := by
  unfold run Program.run at h
  cases hrun : Run.executeAll fuel Machine.globals .nothing program.statements session.machine with
  | ok flow after => simp [hrun] at h
  | error reason after =>
      cases reason with
      | outOfFuel => simp [hrun] at h
      | fault own =>
          simp only [hrun, Prod.mk.injEq, Except.error.injEq, ScriptError.runtime.injEq] at h
          obtain ⟨rfl, rfl⟩ := h
          exact ⟨after, _, rfl, rfl⟩

end Run

theorem checkStmts_cons_ok {checker : Checker} {stmt : Stmt} {rest : List Stmt}
    (h : (checkStmts checker (stmt :: rest)).result = .ok ()) :
    (checkStmt checker stmt).result = .ok () ∧
      (checkStmts (checkStmt checker stmt).checker rest).result = .ok () ∧
      (checkStmts checker (stmt :: rest)).node = (checkStmt checker stmt).node ::
        (checkStmts (checkStmt checker stmt).checker rest).node := by
  cases hstmt : (checkStmt checker stmt).result with
  | error e => simp [checkStmts, hstmt] at h
  | ok =>
      simp only [checkStmts, hstmt] at h ⊢
      exact ⟨trivial, h, trivial⟩

end Scriptlet
