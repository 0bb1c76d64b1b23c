import Scriptlet.Proofs.Rejected
import Scriptlet.Proofs.Running.Moments

/-! The number that the first function without a name gets. Whatever it is, a session comes to the
same ends: only the numbers of all its functions lie further on, and nothing else tells where the
counter began. -/

namespace Scriptlet

/-- A source text for a session, as its next line or as a script that is checked as if it were the
first. -/
structure Given where
  fuel : Nat
  text : String
  alone : Bool

namespace Report

def program (report : Report) : Except CompileError Program :=
  (report.before.compile report.line.text).2

/-- The calls of built-in functions in the line, if all that they print fits into the output. -/
def calls (report : Report) : List BuiltinCall :=
  match report.before.compile report.line.text with
  | (_, .error _) => []
  | (session, .ok program) => program.builtinCalls report.line.fuel
      { session.machine with output := ⟨session.machine.output.written, none⟩ }

def printed (report : Report) : String :=
  Print.joined (report.calls.filterMap BuiltinCall.print?)

/-- The other report is the same, but that all numbers are so much higher. -/
structure Later (distance : Nat) (report report' : Report) : Prop where
  program : report'.program = report.program.map (Program.relabel (.renumber (· + distance)))
  agrees : report'.Agrees (.renumbering (· + distance) (add_left_injective distance)) report
  calls : List.Forall₂
    (BuiltinCall.Varied (.renumbering (· + distance) (add_left_injective distance)))
    report'.calls report.calls
  prints : report.Prints report.printed ∧ report'.Prints report'.printed
  unnamed : report'.after.unnamed = report.after.unnamed + distance

/-- Two reports of sessions whose counters began at these numbers: the one whose counter began
further on is the same as the other one, but that all numbers are higher by the difference. -/
def Alike (first second : Nat) (report report' : Report) : Prop :=
  (∃ distance, second = first + distance ∧ report.Later distance report') ∨
    ∃ distance, first = second + distance ∧ report'.Later distance report

end Report

namespace Session

/-- A new session, which gives its first function without a name this number. -/
def newAt (check : Bool) (output : Output) (clock : Nat → Int64) (unnamed : Nat) : Session :=
  { Session.new check output clock with unnamed }

def facing (session : Session) (given : Given) : Session :=
  if given.alone then { session with checker := session.checker.map fun _ => .new } else session

def reportOf (session : Session) (given : Given) : Report :=
  (session.facing given).report ⟨given.fuel, given.text, true⟩

def reportsOf (session : Session) : List Given → List Report
  | [] => []
  | given :: rest => session.reportOf given :: (session.reportOf given).after.reportsOf rest

section Distance

variable {distance : Nat} {session session' : Session}

theorem facing_unnamed (session : Session) (given : Given) :
    (session.facing given).unnamed = session.unnamed := by
  unfold facing
  split <;> rfl

theorem facing_machine (session : Session) (given : Given) :
    (session.facing given).machine = session.machine := by
  unfold facing
  split <;> rfl

theorem Varied.facing {numbers : Nat → Nat} {hinjective : Function.Injective numbers}
    (h : session.Varied (.renumbering numbers hinjective) session') (given : Given) :
    (session.facing given).Varied (.renumbering numbers hinjective) (session'.facing given) := by
  unfold Session.facing
  split
  · refine ⟨?_, h.machine⟩
    have hnew : Checker.new.renamed (Variation.renumbering numbers hinjective).rename = .new :=
      Checker.renamed_new numbers
    simp only [h.checker, Option.map_map]
    refine Option.map_congr fun _ _ => ?_
    exact hnew.symm
  · exact h

theorem machine_run (session : Session) (fuel : Nat) (program : Program) :
    (session.run fuel program).1.machine = (program.run fuel session.machine).machine := by
  unfold run
  simp only
  split <;> rfl

theorem prints_report (session : Session) (line : Line)
    (hfull : session.machine.output.room = none ∨ ¬(session.report line).Full) :
    (session.report line).Prints (session.report line).printed := by
  obtain ⟨events, hmachine⟩ := session.compile_machine line.text
  have houtput : (session.compile line.text).1.machine.output = session.machine.output := by
    rw [hmachine]
  rw [← houtput] at hfull
  simp only [Report.Full, Report.Prints, Report.printed, Report.calls, report, eval] at hfull ⊢
  rw [← houtput]
  generalize session.compile line.text = compiled at hfull ⊢
  obtain ⟨after, result⟩ := compiled
  cases result with
  | error e => simp [Print.joined]
  | ok program =>
      have hprints := program.output_run line.fuel after.machine after.machine.output.written
      obtain ⟨room, hopen, -⟩ | ⟨hroom, span, hstopped⟩ :=
        program.run_unbounded_or_full line.fuel after.machine
      · simp only [machine_run, ← Program.prints_eq, hopen]
        exact congrArg Output.written hprints
      · have hanswer : (after.run line.fuel program).2 = .error (.runtime ⟨.outputFull, span⟩) := by
          simp only [run, hstopped]
        exact absurd ⟨span, hanswer⟩ (hfull.resolve_left hroom)

theorem calls_report {numbers : Nat → Nat} {hinjective : Function.Injective numbers}
    (h : session.Varied (.renumbering numbers hinjective) session')
    (hunnamed : session.unnamed = session'.unnamed + distance) (line : Line)
    (hnumbers : ∀ number, session'.unnamed ≤ number →
      number < (session'.report line).after.unnamed → numbers number = number + distance) :
    List.Forall₂ (BuiltinCall.Varied (.renumbering numbers hinjective))
      (session.report line).calls (session'.report line).calls := by
  rw [report, unnamed_eval] at hnumbers
  obtain ⟨hresult, hcompiled⟩ := compile_varied rfl h hunnamed hnumbers
  have hplain := @compile_plain session' line.text
  simp only [Report.calls, report]
  generalize session.compile line.text = compiled at hresult hcompiled ⊢
  generalize session'.compile line.text = compiled' at hresult hcompiled hplain ⊢
  obtain ⟨after, result⟩ := compiled
  obtain ⟨after', result'⟩ := compiled'
  obtain rfl : result = _ := hresult
  cases result' with
  | error e => exact .nil
  | ok program =>
      let c := Comparison.printing (.renumbering numbers hinjective)
        after.machine.output.written after'.machine.output.written
      have hsuits : c.Suits program.nodes :=
        ⟨fun node hnode name hname => renumbered_plain (hplain rfl node hnode name hname),
          fun _ _ => trivial⟩
      have hmachines : c.Machines
          { after.machine with output := ⟨after.machine.output.written, none⟩ }
          { after'.machine with output := ⟨after'.machine.output.written, none⟩ } :=
        ⟨hcompiled.machine.of_output _ _, ⟨"", "", by simp, by simp, .same ""⟩, trivial⟩
      exact Program.builtinCalls_varied rfl rfl hsuits line.fuel hmachines

theorem reportOf_later
    (h : session.Varied (.renumbering (· + distance) (add_left_injective distance)) session')
    (hunnamed : session.unnamed = session'.unnamed + distance) (given : Given)
    (hfull : session.machine.output.room = none ∨ ¬(session.reportOf given).Full)
    (hfull' : session'.machine.output.room = none ∨ ¬(session'.reportOf given).Full) :
    (session'.reportOf given).Later distance (session.reportOf given) := by
  rw [← facing_unnamed session given, ← facing_unnamed session' given] at hunnamed
  rw [← facing_machine session given] at hfull
  rw [← facing_machine session' given] at hfull'
  have hfacing := h.facing given
  exact {
    program := (compile_varied rfl hfacing hunnamed fun _ _ _ => rfl).1
    agrees := report_agrees hfacing hunnamed _ (fun _ _ _ => rfl) hfull hfull'
    calls := calls_report hfacing hunnamed _ fun _ _ _ => rfl
    prints := ⟨prints_report _ _ hfull', prints_report _ _ hfull⟩
    unnamed := unnamed_report_later hunnamed _ }

theorem room_reportOf (h : session.machine.output.room = none) (given : Given) :
    (session.reportOf given).after.machine.output.room = none :=
  room_report (by rwa [facing_machine]) _

/-- By induction on the source texts. From one to the next the sessions differ in the numbers
only. -/
theorem reportsOf_later (givens : List Given) (count : Nat)
    (h : session.Varied (.renumbering (· + distance) (add_left_injective distance)) session')
    (hunnamed : session.unnamed = session'.unnamed + distance)
    (hfull : session.machine.output.room = none ∧ session'.machine.output.room = none ∨
      ∀ report ∈ (session.reportsOf givens).take count ++ (session'.reportsOf givens).take count,
        ¬report.Full) :
    List.Forall₂ (Report.Later distance) ((session'.reportsOf givens).take count)
      ((session.reportsOf givens).take count) := by
  induction givens generalizing session session' count with
  | nil => simp [reportsOf]
  | cons given rest ih =>
      cases count with
      | zero => exact .nil
      | succ count =>
          simp only [reportsOf, List.take_succ_cons] at hfull ⊢
          have hlater := reportOf_later h hunnamed given
            (hfull.imp And.left fun hnone => hnone _ (by simp))
            (hfull.imp And.right fun hnone => hnone _ (by simp))
          refine .cons hlater (ih count hlater.agrees.after hlater.unnamed ?_)
          refine hfull.imp (fun hroom => ?_) fun hnone report hmem => hnone report ?_
          · exact ⟨room_reportOf hroom.1 given, room_reportOf hroom.2 given⟩
          · simp only [List.mem_append, List.mem_cons] at hmem ⊢
            exact hmem.imp .inr .inr

end Distance

theorem newAt_later (check : Bool) (output : Output) (clock : Nat → Int64)
    (unnamed distance : Nat) (givens : List Given) (count : Nat)
    (hfull : output.room = none ∨
      ∀ report ∈ ((newAt check output clock (unnamed + distance)).reportsOf givens).take count ++
        ((newAt check output clock unnamed).reportsOf givens).take count, ¬report.Full) :
    List.Forall₂ (Report.Later distance)
      (((newAt check output clock unnamed).reportsOf givens).take count)
      (((newAt check output clock (unnamed + distance)).reportsOf givens).take count) := by
  have hnew := ((Arises.new check output clock).keeps (h := add_left_injective distance)
    fun number hlt => absurd hlt (Nat.not_lt_zero number)).of_keeping
  refine reportsOf_later givens count ⟨hnew.checker, hnew.machine⟩ rfl ?_
  exact hfull.imp_left fun hroom => ⟨hroom, hroom⟩

/-- A function without a name is bound, one is printed, and one is in a script with a checker of its
own, which is rejected. -/
def unnamedFunctions : List Given :=
  [⟨60, "let f = fn() -> int { return 7 }", false⟩,
    ⟨60, "println(fn() -> int { return f() })", false⟩,
    ⟨60, "(fn() -> int { return 1 })() + missing", true⟩]

end Session

end Scriptlet
