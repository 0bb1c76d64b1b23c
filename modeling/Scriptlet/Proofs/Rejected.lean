import Mathlib.Data.Nat.Nth
import Scriptlet.Proofs.Lines.Arising
import Scriptlet.Proofs.Printing

/-! Lines that do not compile. Deleting them from the lines that a session is given changes nothing
for the others, but that the functions without a name have earlier numbers, since the deleted lines
take none any more. -/

namespace Scriptlet

namespace Session

def withOutput (session : Session) (output : Output) : Session :=
  { session with machine := { session.machine with output } }

theorem check_withOutput (session : Session) (output : Output) (program : Program) :
    (session.withOutput output).check program =
      ((session.check program).1.withOutput output, (session.check program).2) := by
  obtain ⟨checker, unnamed, machine⟩ := session
  cases checker with
  | none => rfl
  | some checker =>
      simp only [check, withOutput]
      cases (program.check checker).result with
      | ok _ => rfl
      | error e => rfl

theorem compile_withOutput (session : Session) (output : Output) (source : String) :
    (session.withOutput output).compile source =
      ((session.compile source).1.withOutput output, (session.compile source).2) := by
  have hunnamed : (session.withOutput output).unnamed = session.unnamed := rfl
  simp only [compile, hunnamed]
  cases (Program.ofSource source session.unnamed).result with
  | error e => rfl
  | ok program =>
      have hcheck := check_withOutput ({ session with
          unnamed := (Program.ofSource source session.unnamed).unnamed }.observe
        (Program.ofSource source session.unnamed).events) output program
      have hobserve : { session.withOutput output with
          unnamed := (Program.ofSource source session.unnamed).unnamed }.observe
            (Program.ofSource source session.unnamed).events =
          ({ session with unnamed := (Program.ofSource source session.unnamed).unnamed }.observe
            (Program.ofSource source session.unnamed).events).withOutput output := rfl
      simp only [hobserve, hcheck]
      generalize Session.check _ program = checked
      obtain ⟨after, result⟩ := checked
      cases result with
      | error e => rfl
      | ok checked => rfl

theorem eval_unbounded_or_full (session : Session) (fuel : Nat) (source : String) :
    let unbounded := (session.withOutput ⟨session.machine.output.written, none⟩).eval fuel source
    (∃ room, session.eval fuel source =
        (unbounded.1.withOutput ⟨unbounded.1.machine.output.written, room⟩, unbounded.2) ∧
      (session.machine.output.room = none → room = none)) ∨
      session.machine.output.room ≠ none ∧
        ∃ span, (session.eval fuel source).2 = .error (.runtime ⟨.outputFull, span⟩) := by
  intro unbounded
  obtain ⟨events, hmachine⟩ := session.compile_machine source
  have hwritten : session.machine.output = (session.compile source).1.machine.output := by
    rw [hmachine]
  simp only [unbounded, eval, compile_withOutput, hwritten]
  generalize session.compile source = compiled
  obtain ⟨after, result⟩ := compiled
  cases result with
  | error e => exact .inl ⟨after.machine.output.room, rfl, id⟩
  | ok program =>
      obtain ⟨room, hrun, hnone⟩ | ⟨hroom, span, hfull⟩ :=
        program.run_unbounded_or_full fuel after.machine
      · refine .inl ⟨room, ?_, hnone⟩
        simp only [run, withOutput, hrun]
        generalize program.run fuel _ = ended
        obtain ⟨machine, result⟩ := ended
        cases result with
        | ok value => rfl
        | error reason => cases reason <;> rfl
      · refine .inr ⟨hroom, span, ?_⟩
        simp only [run, hfull]

end Session

/-- A line that is given to a session. Lines that do not stay are deleted. -/
structure Line where
  fuel : Nat
  text : String
  stays : Bool

structure Report where
  line : Line
  before : Session
  answer : Except ScriptError Value
  after : Session

namespace Report

def Rejected (report : Report) : Prop := ∃ error, report.answer = .error (.compile error)

instance (report : Report) : Decidable report.Rejected :=
  decidable_of_iff ((match report.answer with | .error (.compile _) => true | _ => false) = true)
    (by rw [Rejected]; split <;> simp_all)

/-- A text did not fit into the output any more. -/
def Full (report : Report) : Prop :=
  ∃ span, report.answer = .error (.runtime ⟨.outputFull, span⟩)

/-- The number is given to a function without a name that is read in the line. -/
def Takes (report : Report) (number : Nat) : Prop :=
  report.before.unnamed ≤ number ∧ number < report.after.unnamed

instance (report : Report) (number : Nat) : Decidable (report.Takes number) :=
  inferInstanceAs (Decidable (_ ∧ _))

def Prints (report : Report) (text : String) : Prop :=
  report.after.machine.output.written = report.before.machine.output.written ++ text.toUTF8

/-- The line has the same value or the same error, prints the same and leaves the same behind, but
for labels. -/
structure Agrees (v : Variation) (report report' : Report) : Prop where
  line : report.line = report'.line
  answer : SameAnswer v report.answer report'.answer
  prints : ∃ text text', report.Prints text ∧ report'.Prints text' ∧ SameText v text text'
  after : report.after.Varied v report'.after

end Report

def Comparison.printing (v : Variation) (before before' : ByteArray) : Comparison where
  toVariation := v
  outputs output output' := ∃ text text' : String, output = ⟨before ++ text.toUTF8, none⟩ ∧
    output' = ⟨before' ++ text'.toUTF8, none⟩ ∧ SameText v text text'
  transcripts _ _ := True
  slack := 0
  write := by
    rintro _ _ text text' ⟨earlier, earlier', rfl, rfl, hearlier⟩ htext
    refine ⟨⟨earlier ++ text, earlier' ++ text', ?_, ?_, hearlier.append htext⟩, rfl⟩ <;>
      simp [Output.write, ByteArray.append_assoc]
  extend _ _ := trivial

namespace Session

def report (session : Session) (line : Line) : Report :=
  ⟨line, session, (session.eval line.fuel line.text).2, (session.eval line.fuel line.text).1⟩

def reports (session : Session) : List Line → List Report
  | [] => []
  | line :: rest => session.report line :: (session.report line).after.reports rest

section Line

variable {numbers : Nat → Nat} {hinjective : Function.Injective numbers} {distance : Nat}
  {session session' : Session}

theorem report_agrees (h : session.Varied (.renumbering numbers hinjective) session')
    (hunnamed : session.unnamed = session'.unnamed + distance) (line : Line)
    (hnumbers : ∀ number, session'.unnamed ≤ number →
      number < (session'.report line).after.unnamed → numbers number = number + distance)
    (hfull : session.machine.output.room = none ∨ ¬(session.report line).Full)
    (hfull' : session'.machine.output.room = none ∨ ¬(session'.report line).Full) :
    (session.report line).Agrees (.renumbering numbers hinjective) (session'.report line) := by
  let before := session.machine.output.written
  let before' := session'.machine.output.written
  let c := Comparison.printing (.renumbering numbers hinjective) before before'
  have hstart : c.outputs ⟨before, none⟩ ⟨before', none⟩ := ⟨"", "", by simp, by simp, .same ""⟩
  have hsessions : (session.withOutput ⟨before, none⟩).Varied c.toVariation
      (session'.withOutput ⟨before', none⟩) := ⟨h.checker, h.machine.of_output _ _⟩
  rw [report, unnamed_eval] at hnumbers
  obtain ⟨hanswer, hafter, -, ⟨text, text', houtput, houtput', htext⟩, -⟩ :=
    eval_varied (fun _ => Iff.rfl) rfl hsessions ⟨hsessions.machine, hstart, trivial⟩ hunnamed
      hnumbers (fun _ _ _ _ => trivial) line.fuel
  obtain ⟨room, hopen, -⟩ | ⟨hroom, hstopped⟩ :=
    session.eval_unbounded_or_full line.fuel line.text
  · obtain ⟨room', hopen', -⟩ | ⟨hroom', hstopped'⟩ :=
      session'.eval_unbounded_or_full line.fuel line.text
    · refine ⟨rfl, ?_, ⟨text, text', ?_, ?_, htext⟩, ?_⟩
      · simp only [report, hopen, hopen']
        exact hanswer
      · simp only [Report.Prints, report, hopen]
        exact congrArg Output.written houtput
      · simp only [Report.Prints, report, hopen']
        exact congrArg Output.written houtput'
      · simp only [report, hopen, hopen']
        exact ⟨hafter.checker, hafter.machine.of_output _ _⟩
    · exact absurd hstopped' (hfull'.resolve_left hroom')
  · exact absurd hstopped (hfull.resolve_left hroom)

theorem room_report (h : session.machine.output.room = none) (line : Line) :
    (session.report line).after.machine.output.room = none := by
  obtain ⟨room, hopen, hroom⟩ | ⟨hne, -⟩ := session.eval_unbounded_or_full line.fuel line.text
  · simp only [report, hopen]
    exact hroom h
  · exact absurd h hne

theorem unnamed_report (session : Session) (line : Line) :
    session.unnamed ≤ (session.report line).after.unnamed := by
  rw [report, unnamed_eval]
  exact (@Program.ofSource_later id _ 0 line.text).1

/-- A line that does not compile changes nothing but the next number, and what was observed. -/
theorem Varied.rejected (h : session.Varied (.renumbering numbers hinjective) session')
    {line : Line} (hrejected : (session.report line).Rejected) :
    (session.report line).after.Varied (.renumbering numbers hinjective) session' := by
  obtain ⟨error, hanswer⟩ := hrejected
  obtain ⟨events, hmachine⟩ := session.compile_machine line.text
  have hkept := @compile_error session (session.compile line.text).1 line.text
  simp only [report, eval] at hanswer ⊢
  generalize session.compile line.text = compiled at hanswer hmachine hkept ⊢
  obtain ⟨after, result⟩ := compiled
  cases result with
  | error e =>
      refine ⟨(hkept rfl).1.trans h.checker, ?_⟩
      rw [hmachine]
      exact h.machine.of_events events session'.machine.events
  | ok program =>
      obtain hfuel | ⟨e, hruntime, -⟩ := run_error hanswer
      · cases hfuel
      · cases hruntime

end Line

section Numbers

variable {free : Nat → Prop} [DecidablePred free] {start stop number : Nat}

theorem count_of_all (hle : start ≤ stop)
    (h : ∀ number, start ≤ number → number < stop → free number) :
    Nat.count free stop = Nat.count free start + (stop - start) := by
  obtain ⟨length, rfl⟩ := Nat.exists_eq_add_of_le hle
  have hall : ∀ n < length, free (start + n) := fun n hn => h (start + n) (by omega) (by omega)
  rw [Nat.count_add, Nat.count_of_forall hall]
  omega

theorem count_of_none (hle : start ≤ stop)
    (h : ∀ number, start ≤ number → number < stop → ¬free number) :
    Nat.count free stop = Nat.count free start := by
  obtain ⟨length, rfl⟩ := Nat.exists_eq_add_of_le hle
  have hnone : ∀ n < length, ¬free (start + n) :=
    fun n hn => h (start + n) (by omega) (by omega)
  rw [Nat.count_add, Nat.count_of_forall_not hnone, Nat.add_zero]

theorem nth_of_all (h : ∀ number, start ≤ number → number < stop → free number)
    (hle : Nat.count free start ≤ number)
    (hlt : number < Nat.count free start + (stop - start)) :
    Nat.nth free number = number + (start - Nat.count free start) := by
  have hcount := @Nat.count_le free _ start
  let place := number + (start - Nat.count free start)
  have hfree : free place := h place (by omega) (by omega)
  have hplace : Nat.count free place = number := by
    rw [@count_of_all free _ start place (by omega) fun n hstart hn => h n hstart (by omega)]
    omega
  calc
    Nat.nth free number = Nat.nth free (Nat.count free place) := by rw [hplace]
    _ = place := Nat.nth_count hfree

end Numbers

section Lines

variable {session session' : Session} {lines : List Line} {report : Report}

theorem lines_of_reports (session : Session) (lines : List Line) :
    (session.reports lines).map Report.line = lines := by
  induction lines generalizing session with
  | nil => rfl
  | cons line rest ih => rw [reports, List.map_cons, ih, report]

theorem unnamed_le_of_report (h : report ∈ session.reports lines) :
    session.unnamed ≤ report.before.unnamed := by
  induction lines generalizing session with
  | nil => cases h
  | cons line rest ih =>
      obtain rfl | hrest := List.mem_cons.mp h
      · exact Nat.le_refl _
      · exact Nat.le_trans (session.unnamed_report line) (ih hrest)

theorem room_of_report (hroom : session.machine.output.room = none)
    (h : report ∈ session.reports lines) : report.before.machine.output.room = none := by
  induction lines generalizing session with
  | nil => cases h
  | cons line rest ih =>
      obtain rfl | hrest := List.mem_cons.mp h
      · exact hroom
      · exact ih (room_report hroom line) hrest

theorem unnamed_report_later {distance : Nat}
    (h : session.unnamed = session'.unnamed + distance) (line : Line) :
    (session.report line).after.unnamed = (session'.report line).after.unnamed + distance := by
  have hlater := (@Program.ofSource_later (· + distance) session'.unnamed distance line.text).2
    fun _ _ _ => rfl
  rw [report, report, unnamed_eval, unnamed_eval, h, hlater]

theorem report_agrees_of_free {free : Nat → Prop} [DecidablePred free]
    (hfree : {number | free number}.Infinite)
    (h : session.Varied (.renumbering (Nat.nth free) (Nat.nth_injective hfree)) session')
    (hunnamed : session'.unnamed = Nat.count free session.unnamed) {line : Line}
    (hown : ∀ number, session.unnamed ≤ number →
      number < (session.report line).after.unnamed → free number)
    (hfull : session.machine.output.room = none ∨ ¬(session.report line).Full)
    (hfull' : session'.machine.output.room = none ∨ ¬(session'.report line).Full) :
    (session.report line).Agrees (.renumbering (Nat.nth free) (Nat.nth_injective hfree))
        (session'.report line) ∧
      (session'.report line).after.unnamed =
        Nat.count free (session.report line).after.unnamed := by
  have hle := session.unnamed_report line
  have hcount := @Nat.count_le free _ session.unnamed
  have hdistance : session.unnamed =
      session'.unnamed + (session.unnamed - Nat.count free session.unnamed) := by omega
  have hafter := unnamed_report_later hdistance line
  refine ⟨report_agrees h hdistance line (fun number hstart hstop => ?_) hfull hfull', ?_⟩
  · exact nth_of_all hown (hunnamed ▸ hstart) (by omega)
  · rw [count_of_all hle hown]
    omega

/-- By induction on the lines. What is known of the numbers is that those are free which no line
takes that is going to be deleted; up to the next one they are the numbers of the other session. -/
theorem reports_agree {free : Nat → Prop} [DecidablePred free]
    (hfree : {number | free number}.Infinite)
    (h : session.Varied (.renumbering (Nat.nth free) (Nat.nth_injective hfree)) session')
    (hunnamed : session'.unnamed = Nat.count free session.unnamed)
    (hrejected : ∀ report ∈ session.reports lines, report.line.stays = false → report.Rejected)
    (htaken : ∀ number, session.unnamed ≤ number → (free number ↔
      ∀ report ∈ session.reports lines, report.line.stays = false → ¬report.Takes number))
    (count : Nat)
    (hfull : ∀ report ∈ ((session.reports lines).filter (·.line.stays)).take count ++
      (session'.reports (lines.filter (·.stays))).take count,
        report.before.machine.output.room = none ∨ ¬report.Full) :
    List.Forall₂ (Report.Agrees (.renumbering (Nat.nth free) (Nat.nth_injective hfree)))
      (((session.reports lines).filter (·.line.stays)).take count)
      ((session'.reports (lines.filter (·.stays))).take count) := by
  induction lines generalizing session session' count with
  | nil => simp [reports]
  | cons line rest ih =>
      rw [reports] at hrejected
      obtain ⟨hfirst, hothers⟩ := List.forall_mem_cons.mp hrejected
      have hle := session.unnamed_report line
      have hline : (session.report line).line = line := rfl
      have hlater : ∀ number, (session.report line).after.unnamed ≤ number →
          ¬(session.report line).Takes number :=
        fun number hnumber htakes => Nat.not_lt.mpr hnumber htakes.2
      have htaken' : ∀ number, (session.report line).after.unnamed ≤ number → (free number ↔
          ∀ report ∈ (session.report line).after.reports rest,
            report.line.stays = false → ¬report.Takes number) := by
        intro number hnumber
        rw [htaken number (Nat.le_trans hle hnumber), reports, List.forall_mem_cons]
        exact ⟨And.right, fun hrest => ⟨fun _ => hlater number hnumber, hrest⟩⟩
      cases hstays : line.stays with
      | false =>
          -- all numbers that the line takes are lost, so none of them is counted
          have hcount : session'.unnamed = Nat.count free (session.report line).after.unnamed := by
            rw [hunnamed]
            refine (count_of_none hle fun number hstart hstop hnumber => ?_).symm
            exact (htaken number hstart).mp hnumber _ List.mem_cons_self hstays ⟨hstart, hstop⟩
          simp only [reports, List.filter_cons, hline, hstays, Bool.false_eq_true, if_false]
            at hfull ⊢
          exact ih (h.rejected (hfirst hstays)) hcount hothers htaken' count hfull
      | true =>
          have hown : ∀ number, session.unnamed ≤ number →
              number < (session.report line).after.unnamed → free number := by
            intro number hstart hstop
            rw [htaken number hstart, reports, List.forall_mem_cons]
            refine ⟨fun hdeleted => ?_, fun report hmem _ htakes => ?_⟩
            · rw [hline, hstays] at hdeleted
              cases hdeleted
            · exact Nat.not_lt.mpr (Nat.le_trans (unnamed_le_of_report hmem) htakes.1) hstop
          simp only [reports, List.filter_cons, hline, hstays, if_true] at hfull ⊢
          cases count with
          | zero => exact .nil
          | succ count =>
              simp only [List.take_succ_cons] at hfull ⊢
              obtain ⟨hagrees, hcount⟩ := report_agrees_of_free hfree h hunnamed hown
                (hfull _ (List.mem_append_left _ List.mem_cons_self))
                (hfull _ (List.mem_append_right _ List.mem_cons_self))
              refine .cons hagrees (ih hagrees.after hcount hothers htaken' count ?_)
              intro report hmem
              refine hfull report ?_
              simp only [List.mem_append, List.mem_cons] at hmem ⊢
              exact hmem.imp .inr .inr

end Lines

theorem infinite_free (reports : List Report) :
    {number | ∀ report ∈ reports, report.line.stays = false → ¬report.Takes number}.Infinite := by
  obtain ⟨bound, hbound⟩ := (List.finite_toSet (reports.map (·.after.unnamed))).bddAbove
  refine Set.infinite_of_forall_exists_gt fun number => ⟨max number bound + 1, ?_, by omega⟩
  intro report hmem _ htakes
  have hle : report.after.unnamed ≤ bound := hbound (List.mem_map.mpr ⟨report, hmem, rfl⟩)
  have hlt : max number bound + 1 < report.after.unnamed := htakes.2
  omega

/-- Between two lines that are kept, one that is not read to its end and one whose types do not fit
take a number each. -/
def interrupted : List Line :=
  [⟨60, "let f = fn() -> int \x7b return 7 \x7d", true⟩, ⟨60, "fn(1)", false⟩,
    ⟨60, "let y: int = fn() -> int \x7b return 1 \x7d", false⟩,
    ⟨60, "println(fn() -> int \x7b return f() \x7d)", true⟩, ⟨60, "1 / 0", true⟩]

end Session

end Scriptlet
