import Scriptlet.Proofs.Lines.Session

/-! A program line by line. A session that is given the statements of a program one after another
reads, checks and runs them as the program does, and prints what it prints. Only when a statement
fails the two part: the program ends there, and the session goes on. -/

namespace Scriptlet

namespace Session

def answers (session : Session) : List (Nat × String) → List (Except ScriptError Value)
  | [] => []
  | line :: rest =>
      (session.eval line.1 line.2).2 :: answers (session.eval line.1 line.2).1 rest

variable {session : Session} {stmts : List Stmt} {lines : List String} {unnamed after : Nat}
  {checker : Checker} {fed : List (Nat × String)}

theorem evalAll_cons (session : Session) (line : Nat × String) (rest : List (Nat × String)) :
    session.evalAll (line :: rest) = (session.eval line.1 line.2).1.evalAll rest := rfl

theorem length_answers (session : Session) (fed : List (Nat × String)) :
    (session.answers fed).length = fed.length := by
  induction fed generalizing session with
  | nil => rfl
  | cons line rest ih => rw [answers, List.length_cons, List.length_cons, ih]

theorem readsAs_in_lines (hread : ReadInLines stmts lines unnamed after)
    (hchecked : (checkStmts checker stmts).result = .ok ()) (hat : session.At unnamed checker)
    (hfed : fed.map Prod.snd = lines) {earlier later : List (Nat × String)} {line : Nat × String}
    (hsplit : fed = earlier ++ line :: later) :
    ∃ stmt node, stmts[earlier.length]? = some stmt ∧
      (checkStmts checker stmts).node[earlier.length]? = some node ∧
      (session.evalAll earlier).ReadsAs line.2 stmt node := by
  induction hread generalizing session checker fed earlier with
  | nil => simp [hsplit] at hfed
  | cons hstmt hrest ih =>
      obtain ⟨haccepted, hothers, hnode⟩ := checkStmts_cons_ok hchecked
      rw [hnode]
      cases earlier with
      | nil =>
          rw [List.nil_append] at hsplit
          rw [hsplit, List.map_cons, List.cons.injEq] at hfed
          obtain ⟨rfl, -⟩ := hfed
          exact ⟨_, _, rfl, rfl, hat.readsAs hstmt haccepted⟩
      | cons first earlier =>
          rw [hsplit, List.cons_append, List.map_cons, List.cons.injEq] at hfed
          obtain ⟨rfl, hfed⟩ := hfed
          have hnext := hat.eval_line hstmt haccepted first.1
          simpa [evalAll_cons] using ih hothers hnext hfed rfl

end Session

namespace Run

variable {fuel : Nat} {scope : ScopeId} {stmt : Stmt} {rest : List Stmt} {machine middle : Machine}

theorem executeAll_normal {value : Value} (last : Value)
    (h : execute fuel scope stmt machine = .ok (.normal value) middle) :
    executeAll (fuel + 1) scope last (stmt :: rest) machine =
      executeAll fuel scope value rest middle := by
  simp [executeAll, bind, EStateM.bind, h]

theorem executeAll_returned {value : Value} (last : Value)
    (h : execute fuel scope stmt machine = .ok (.returned value) middle) :
    executeAll (fuel + 1) scope last (stmt :: rest) machine = .ok (.returned value) middle := by
  simp [executeAll, bind, EStateM.bind, h, pure, EStateM.pure]

theorem executeAll_stopped {reason : Stop} (last : Value)
    (h : execute fuel scope stmt machine = .error reason middle) :
    executeAll (fuel + 1) scope last (stmt :: rest) machine = .error reason middle := by
  simp [executeAll, bind, EStateM.bind, h]

theorem executeAll_alone {flow : Flow} (last : Value)
    (h : execute fuel scope stmt machine = .ok flow middle) :
    executeAll (fuel + 1) scope last [stmt] machine = .ok flow middle := by
  cases fuel with
  | zero =>
      simp only [execute] at h
      cases h
  | succ fuel =>
      cases flow with
      | normal value =>
          rw [executeAll_normal last h, executeAll]
          rfl
      | returned value => exact executeAll_returned last h

/-- Some statement before the last one ends all with a `return`. -/
def returnsEarly (fuel : Nat) (scope : ScopeId) (last : Value) (stmts : List Stmt)
    (machine : Machine) : Bool :=
  match executeAll fuel scope last stmts.dropLast machine with
  | .ok (.returned _) _ => true
  | _ => false

theorem returnsEarly_normal {value : Value} (last : Value)
    (h : execute fuel scope stmt machine = .ok (.normal value) middle)
    (hreturns : returnsEarly (fuel + 1) scope last (stmt :: rest) machine = false) :
    returnsEarly fuel scope value rest middle = false := by
  cases rest with
  | nil =>
      unfold returnsEarly
      split
      · rename_i hrun
        cases fuel with
        | zero =>
            simp only [executeAll] at hrun
            cases hrun
        | succ fuel => simp [executeAll, pure, EStateM.pure] at hrun
      · rfl
  | cons next rest =>
      unfold returnsEarly at hreturns ⊢
      rwa [List.dropLast_cons_cons, executeAll_normal last h] at hreturns

theorem returnsEarly_returned {value : Value} (last : Value)
    (h : execute fuel scope stmt machine = .ok (.returned value) middle) (hne : rest ≠ []) :
    returnsEarly (fuel + 1) scope last (stmt :: rest) machine = true := by
  unfold returnsEarly
  rw [List.dropLast_cons_of_ne_nil hne, executeAll_returned last h]

end Run

namespace Session

/-- Every line comes to a value, the last one to this value. -/
structure Completes (session : Session) (fed : List (Nat × String)) (last value : Value)
    (after : Machine) : Prop where
  values : ∃ values : List Value, session.answers fed = values.map .ok ∧
    value.Moved (values.getLast?.getD last)
  machine : after.Moved (session.evalAll fed).machine

/-- The lines come to values up to one that fails. -/
structure FailsAt (session : Session) (earlier : List (Nat × String)) (line : Nat × String)
    (fault : RuntimeFault) (after : Machine) : Prop where
  values : ∃ values : List Value, session.answers earlier = values.map .ok
  fails : ∃ failed error, (session.evalAll earlier).eval line.1 line.2 =
    (failed, .error (.runtime error)) ∧ fault = error.fault ∧ after.Moved failed.machine

/-- The lines end as the statements do: all with values, or at the same place with the same
fault. -/
def Follows (session : Session) (fed : List (Nat × String)) (last' : Value) (fuel : Nat)
    (last : Value) (stmts : List Stmt) (machine : Machine) : Prop :=
  (Run.executeAll fuel Machine.globals last stmts).Ends machine
    (fun flow after => session.Completes fed last' flow.value after)
    (fun reason after => ∀ error, reason = .fault error →
      ∃ earlier line later, fed = earlier ++ line :: later ∧
        Run.pending fuel Machine.globals stmts machine = stmts.drop earlier.length ∧
        session.FailsAt earlier line error.fault after)

section Follows

variable {session : Session} {fed : List (Nat × String)} {line : Nat × String} {fuel : Nat}
  {last last' value own : Value} {stmt : Stmt} {rest : List Stmt} {machine middle : Machine}

theorem follows_outOfFuel : session.Follows fed last' 0 last rest machine := by
  rw [Follows, Run.executeAll]
  rintro error ⟨⟩

theorem follows_nil (hlast : last.Moved last') (hmachine : machine.Moved session.machine) :
    session.Follows [] last' fuel last [] machine := by
  cases fuel with
  | zero => exact follows_outOfFuel
  | succ fuel =>
      rw [Follows, Run.executeAll]
      exact ⟨⟨[], rfl, hlast⟩, hmachine⟩

theorem follows_stopped {reason : Stop}
    (hrun : Run.execute fuel Machine.globals stmt machine = .error reason middle)
    (hline : ∀ error, reason = .fault error → ∃ error',
      (session.eval line.1 line.2).2 = .error (.runtime error') ∧ error.fault = error'.fault ∧
        middle.Moved (session.eval line.1 line.2).1.machine) :
    session.Follows (line :: fed) last' (fuel + 1) last (stmt :: rest) machine := by
  rw [Follows, Run.Ends, Run.executeAll_stopped last hrun]
  intro error he
  obtain ⟨error', hfails, hfault, hmoved⟩ := hline error he
  refine ⟨[], line, fed, rfl, by simp [Run.pending, hrun], ⟨[], rfl⟩, ?_⟩
  exact ⟨_, error', Prod.ext rfl hfails, hfault, hmoved⟩

theorem Follows.cons
    (hrun : Run.execute fuel Machine.globals stmt machine = .ok (.normal own) middle)
    (hline : (session.eval line.1 line.2).2 = .ok value)
    (h : (session.eval line.1 line.2).1.Follows fed value fuel own rest middle) :
    session.Follows (line :: fed) last' (fuel + 1) last (stmt :: rest) machine := by
  have hfirst : ∀ {lines : List (Nat × String)} {values : List Value},
      (session.eval line.1 line.2).1.answers lines = values.map .ok →
        session.answers (line :: lines) = (value :: values).map .ok := by
    intro lines values hanswers
    rw [answers, hline, hanswers, List.map_cons]
  rw [Follows, Run.Ends, Run.executeAll_normal last hrun]
  refine Run.Ends.mono h ?_ ?_
  · rintro flow after ⟨⟨values, hanswers, hvalue⟩, hmachine⟩
    refine ⟨⟨value :: values, hfirst hanswers, ?_⟩, hmachine⟩
    rw [List.getLast?_cons]
    exact hvalue
  · intro reason after hstop error he
    obtain ⟨earlier, failing, later, rfl, hpending, ⟨values, hanswers⟩, hfails⟩ := hstop error he
    refine ⟨line :: earlier, failing, later, rfl, ?_, ⟨value :: values, hfirst hanswers⟩, hfails⟩
    simp [Run.pending, hrun, hpending]

theorem follows_returned
    (hrun : Run.execute fuel Machine.globals stmt machine = .ok (.returned own) middle)
    (hline : (session.eval line.1 line.2).2 = .ok value) (hvalue : own.Moved value)
    (hmachine : middle.Moved (session.eval line.1 line.2).1.machine) :
    session.Follows [line] last' (fuel + 1) last [stmt] machine := by
  rw [Follows, Run.Ends, Run.executeAll_returned last hrun]
  exact ⟨⟨[value], by rw [answers, hline]; rfl, hvalue⟩, hmachine⟩

end Follows

variable {session : Session} {stmts : List Stmt} {lines : List String} {unnamed after : Nat}
  {checker : Checker} {fed : List (Nat × String)}

/-- By induction on the lines: what a line leaves is what the next one starts from. -/
theorem follows_in_lines (hread : ReadInLines stmts lines unnamed after)
    (hchecked : (checkStmts checker stmts).result = .ok ()) (hat : session.At unnamed checker)
    (hfed : fed.map Prod.snd = lines) {fuel : Nat} (hfuel : ∀ line ∈ fed, fuel ≤ line.1)
    {machine : Machine} (hmachine : machine.Moved session.machine) {last last' : Value}
    (hlast : last.Moved last')
    (hreturns : Run.returnsEarly fuel Machine.globals last (checkStmts checker stmts).node
      machine = false) :
    session.Follows fed last' fuel last (checkStmts checker stmts).node machine := by
  induction hread generalizing session checker fed fuel machine last last' with
  | nil =>
      rw [List.map_eq_nil_iff.mp hfed]
      exact follows_nil hlast hmachine
  | @cons stmt rest line lines unnamed middle after hstmt hrest ih =>
      obtain ⟨haccepted, hothers, hnode⟩ := checkStmts_cons_ok hchecked
      rw [hnode] at hreturns ⊢
      obtain ⟨first, others, rfl, rfl, hrestfed⟩ := List.map_eq_cons_iff.mp hfed
      obtain ⟨hfirst, hrestfuel⟩ := List.forall_mem_cons.mp hfuel
      have hmirrors := hat.eval_mirrors hstmt haccepted hmachine hfirst
      cases fuel with
      | zero => exact follows_outOfFuel
      | succ fuel =>
          cases hrun : Run.execute fuel Machine.globals (checkStmt checker stmt).node machine with
          | error reason stopped =>
              exact follows_stopped hrun (hmirrors.of_error (Run.executeAll_stopped _ hrun))
          | ok flow ended =>
              obtain ⟨value, hvalue, hflow, hmoved⟩ :=
                hmirrors.of_ok (Run.executeAll_alone _ hrun)
              cases flow with
              | normal own =>
                  have hnext := hat.eval_line hstmt haccepted first.1
                  have hless := fun line hline => Nat.le_of_succ_le (hrestfuel line hline)
                  exact .cons hrun hvalue (ih hothers hnext hrestfed hless hmoved hflow
                    (Run.returnsEarly_normal last hrun hreturns))
              | returned own =>
                  -- a `return` before the last statement is excluded
                  cases hrest with
                  | nil =>
                      rw [List.map_eq_nil_iff.mp hrestfed]
                      exact follows_returned hrun hvalue hflow hmoved
                  | cons =>
                      obtain ⟨_, _, hnodes⟩ := checkStmts_cons_ok hothers
                      rw [Run.returnsEarly_returned last hrun (by simp [hnodes])] at hreturns
                      cases hreturns

/-- A program that a session accepts can be given to it statement by statement instead. Whatever
has become of the lines before, each line is read as its statement alone and is accepted. If the
program comes to a value, and not by a `return` before its last statement, then so do the lines,
and print the same and leave the same behind, also in scopes that only closures know. If a statement
fails, then the lines before it come to values, its line fails for the same reason, and until then
the same was printed and bound. -/
theorem agrees_line_by_line (output : Output) (clock : Nat → Int64) (unnamed : Nat)
    {source : String} {program checked : Program} {compiled : Session}
    (hread : (Program.ofSource source unnamed).result = .ok program)
    (hcompile : { Session.new true output clock with unnamed := unnamed }.compile source =
      (compiled, .ok checked)) (hne : program.statements ≠ []) :
    let start := { Session.new true output clock with unnamed := unnamed }
    ∃ lines, program.lines? source = some lines ∧
      ∀ fed : List (Nat × String), fed.map Prod.snd = lines →
        (∀ earlier line later, fed = earlier ++ line :: later → ∃ stmt node,
          program.statements[earlier.length]? = some stmt ∧
          checked.statements[earlier.length]? = some node ∧
          (start.evalAll earlier).ReadsAs line.2 stmt node) ∧
        ∀ fuel, (∀ line ∈ fed, fuel ≤ line.1) →
          Run.returnsEarly fuel Machine.globals .nothing checked.statements compiled.machine =
            false →
          (∀ whole value, start.evalAlone fuel source = (whole, .ok value) →
            (∃ values last, start.answers fed = (values ++ [last]).map .ok ∧ value.Moved last) ∧
            whole.machine.output = (start.evalAll fed).machine.output ∧
            (∀ name, Option.Rel Value.Moved (whole.machine.global? name)
              ((start.evalAll fed).machine.global? name)) ∧
            whole.machine.Moved (start.evalAll fed).machine) ∧
          ∀ whole error, start.evalAlone fuel source = (whole, .error (.runtime error)) →
            ∃ earlier line later, fed = earlier ++ line :: later ∧
              Run.pending fuel Machine.globals checked.statements compiled.machine =
                checked.statements.drop earlier.length ∧
              (∃ values : List Value, start.answers earlier = values.map .ok) ∧
              ∃ failed error', (start.evalAll earlier).eval line.1 line.2 =
                  (failed, .error (.runtime error')) ∧ error.fault = error'.fault ∧
                whole.machine.output = failed.machine.output ∧
                whole.machine.Moved failed.machine := by
  intro start
  obtain ⟨lines, hlines, hreadlines⟩ := Program.readInLines hread
  obtain ⟨haccepted, hnodes, hmachine⟩ :=
    @compile_checked start _ _ _ _ _ rfl hread hcompile
  have hat : start.At unnamed .new := ⟨rfl, rfl⟩
  refine ⟨lines, hlines, fun fed hfed => ⟨fun earlier line later hsplit => ?_, ?_⟩⟩
  · rw [hnodes]
    exact readsAs_in_lines hreadlines haccepted hat hfed hsplit
  intro fuel hfuel hreturns
  rw [hnodes] at hreturns
  have hfollows := follows_in_lines hreadlines haccepted hat hfed hfuel hmachine
    (.same .nothing) hreturns
  rw [← hnodes] at hfollows
  have halone : start.evalAlone fuel source = compiled.run fuel checked := by
    show start.eval fuel source = _
    rw [eval, hcompile]
  constructor
  · intro whole value hwhole
    obtain ⟨flow, hrun, rfl⟩ := run_eq_ok (halone.symm.trans hwhole)
    obtain ⟨⟨values, hanswers, hvalue⟩, hmoved⟩ := hfollows.of_ok hrun
    refine ⟨?_, hmoved.output, hmoved.global?, hmoved⟩
    have hlength : values.length = program.statements.length := by
      rw [hreadlines.length_eq, ← hfed, List.length_map, ← length_answers start, hanswers,
        List.length_map]
    obtain ⟨earlier, last, rfl⟩ := (List.eq_nil_or_concat values).resolve_left fun hnil =>
      hne (List.eq_nil_of_length_eq_zero (by rw [← hlength, hnil, List.length_nil]))
    rw [List.concat_eq_append] at hanswers hvalue
    rw [List.getLast?_concat] at hvalue
    exact ⟨earlier, last, hanswers, hvalue⟩
  · intro whole error hwhole
    obtain ⟨after, events, hrun, hmachine⟩ := run_eq_runtime (halone.symm.trans hwhole)
    obtain ⟨earlier, line, later, hsplit, hpending, hvalues, failed, error', hfails, hfault,
      hmoved⟩ := hfollows.of_error hrun error rfl
    have hwhole : whole.machine.Moved failed.machine := by
      rw [hmachine]
      exact hmoved.of_events events _
    exact ⟨earlier, line, later, hsplit, hpending, hvalues, failed, error', hfails, hfault,
      hwhole.output, hwhole⟩

theorem exists_of_isOk {ε α : Type} {result : Except ε α} (h : result.isOk) :
    ∃ value, result = .ok value := by
  cases result with
  | ok value => exact ⟨value, rfl⟩
  | error e => cases h

/-- A function without a name is declared, and called. -/
def calling : String := "let f = fn() -> int \x7b return 7 \x7d println(f())"

theorem calling_agrees_line_by_line :
    let start := { Session.new true .unbounded (fun _ => 0) with unnamed := 3 }
    let fed := [(60, "let f = fn() -> int \x7b return 7 \x7d"), (60, "println(f())")]
    (∃ values last, start.answers fed = (values ++ [last]).map .ok) ∧
      (start.evalAlone 60 calling).1.machine.output = (start.evalAll fed).machine.output := by
  intro start fed
  obtain ⟨program, hread⟩ : ∃ program, (Program.ofSource calling 3).result = .ok program :=
    exists_of_isOk (by decide +kernel)
  obtain ⟨checked, hchecked⟩ : ∃ checked, (start.compile calling).2 = .ok checked :=
    exists_of_isOk (by decide +kernel)
  obtain ⟨value, hvalue⟩ : ∃ value, (start.evalAlone 60 calling).2 = .ok value :=
    exists_of_isOk (by decide +kernel)
  have hlines : (Program.ofSource calling 3).result.map (·.lines? calling) =
      .ok (some (fed.map Prod.snd)) := by decide +kernel
  have hreturns : (start.compile calling).2.map (Run.returnsEarly 60 Machine.globals .nothing
      ·.statements (start.compile calling).1.machine) = .ok false := by decide +kernel
  rw [hread] at hlines
  rw [hchecked] at hreturns
  have hne : program.statements ≠ [] := by
    intro hnil
    simp [Except.map, Program.lines?, hnil, fed] at hlines
  obtain ⟨lines, hcut, hall⟩ := agrees_line_by_line .unbounded (fun _ => 0) 3 hread
    (Prod.ext rfl hchecked) hne
  obtain rfl : lines = fed.map Prod.snd :=
    Option.some.inj (hcut.symm.trans (Except.ok.inj hlines))
  obtain ⟨⟨values, last, hanswers, _⟩, houtput, _⟩ := ((hall fed rfl).2 60 (by simp [fed])
    (Except.ok.inj hreturns)).1 _ value (Prod.ext rfl hvalue)
  exact ⟨⟨values, last, hanswers⟩, houtput⟩

/-- A session goes on behind a statement that fails, where the program ends. -/
theorem goes_on_after_failure :
    let start := Session.new true .unbounded fun _ => 0
    let source := "1 / 0 println(2)"
    let fed := [(40, "1 / 0"), (40, "println(2)")]
    (start.compile source).2.isOk ∧
      (Program.ofSource source 0).result.toOption.bind (·.lines? source) =
        some (fed.map Prod.snd) ∧
      (start.compile source).2.toOption.all (fun checked =>
        !Run.returnsEarly 40 Machine.globals .nothing checked.statements
          (start.compile source).1.machine) ∧
      (start.evalAlone 40 source).2 = .error (.runtime ⟨.divisionByZero, ⟨0, 5, 1⟩⟩) ∧
      (start.evalAlone 40 source).1.machine.output.written = .empty ∧
      (start.evalAll fed).machine.output.written = "2\n".toUTF8 := by
  decide +kernel

end Session

end Scriptlet
