import Scriptlet.Proofs.Printing.Output
import Scriptlet.Proofs.Running.Account

/-! What a run prints, and how little the rest of it depends on the output. Only `print` and
`println` reach the output, and they see no more of it than whether their text fits; the transcript
is never read. So a run over any output is the run over one without a bound, up to the first text
that does not fit. -/

namespace Scriptlet

def Builtin.prints? (args : List Value) : Builtin → Option String
  | .clock => none
  | .print => some (String.join (args.map Value.toText))
  | .println => some (String.join (args.map Value.toText) ++ "\n")

namespace Moment

/-- What is printed at a moment itself. A call that gets no fuel does not begin. -/
def print? (moment : Moment) : Option Print :=
  match moment.fuel, moment.task with
  | _ + 1, .call (.builtin builtin) args span => (builtin.prints? args).map (⟨·, span⟩)
  | _, _ => none

def prints (moment : Moment) : List Print :=
  (moment.task.moments moment.fuel moment.machine).filterMap print?

def printsOf (fuel : Nat) (parts : List Moment) : List Print :=
  parts.flatMap fun part => prints ⟨fuel, part.task, part.machine⟩

theorem prints_zero (task : Task) (machine : Machine) : prints ⟨0, task, machine⟩ = [] := by
  simp [prints, Task.moments, print?]

theorem prints_succ (fuel : Nat) (task : Task) (machine : Machine) :
    prints ⟨fuel + 1, task, machine⟩ =
      (print? ⟨fuel + 1, task, machine⟩).toList ++ printsOf fuel (task.parts fuel machine) := by
  simp only [prints, Task.moments, printsOf, List.filterMap_cons, List.filterMap_flatMap]
  cases print? ⟨fuel + 1, task, machine⟩ <;> rfl

end Moment

/-- All that a program prints, in order. -/
def Program.prints (program : Program) (fuel : Nat) (machine : Machine) : List Print :=
  (program.moments fuel machine).filterMap Moment.print?

namespace Run

variable {α β : Type}

def withPrinted (output : Output) (transcript : Option String) :
    EStateM.Result Stop Machine α → EStateM.Result Stop Machine α
  | .ok value after => .ok value { after with output, transcript }
  | .error reason after => .error reason { after with output, transcript }

/-- The run neither prints nor depends on what is printed. -/
def Silent (run : Run α) : Prop :=
  ∀ machine output transcript,
    run { machine with output, transcript } = withPrinted output transcript (run machine)

theorem Hidden.silent {run : Run α} (h : Hidden run) : Silent run := by
  intro machine output transcript
  have hsame := h machine output transcript machine.depth machine.events
  have hlooks := h.ends machine
  cases hrun : run machine with
  | ok value after =>
      have hafter := hlooks.of_ok hrun
      rw [hrun, withSurface] at hsame
      rw [hsame, ← hafter.depth, ← hafter.events]
      rfl
  | error reason after =>
      have hafter := hlooks.of_error hrun
      rw [hrun, withSurface] at hsame
      rw [hsame, ← hafter.depth, ← hafter.events]
      rfl

/-- These texts are printed. Over any output for which they fit, the run is the same as on this
machine, and a transcript gets them all; the first one that does not fit ends it. -/
def Writes (prints : List Print) (run : Run α) (machine : Machine) : Prop :=
  ∀ (output : Output) (transcript : Option String),
    match output.writeAll prints with
    | (after, none) => run { machine with output, transcript } =
        withPrinted after (Print.copied transcript prints) (run machine)
    | (after, some print) => ∃ stopped, stopped.output = after ∧
        run { machine with output, transcript } =
          .error (.fault ⟨.outputFull, print.span⟩) stopped

section Writes

variable {machine : Machine} {prints : List Print}

theorem Writes.of_fits {run : Run α} {output after : Output} (h : Writes prints run machine)
    (hfits : output.writeAll prints = (after, none)) (transcript : Option String) :
    run { machine with output, transcript } =
      withPrinted after (Print.copied transcript prints) (run machine) := by
  simpa only [hfits] using h output transcript

theorem Writes.of_stops {run : Run α} {output after : Output} {print : Print}
    (h : Writes prints run machine) (hstops : output.writeAll prints = (after, some print))
    (transcript : Option String) :
    ∃ stopped, stopped.output = after ∧ run { machine with output, transcript } =
      .error (.fault ⟨.outputFull, print.span⟩) stopped := by
  simpa only [hstops] using h output transcript

theorem writes_of_cases {run : Run α}
    (hfits : ∀ output after transcript, output.writeAll prints = (after, none) →
      run { machine with output, transcript } =
        withPrinted after (Print.copied transcript prints) (run machine))
    (hstops : ∀ output after print transcript, output.writeAll prints = (after, some print) →
      ∃ stopped, stopped.output = after ∧ run { machine with output, transcript } =
        .error (.fault ⟨.outputFull, print.span⟩) stopped) :
    Writes prints run machine := by
  intro output transcript
  split
  · exact hfits output _ transcript ‹_›
  · exact hstops output _ _ transcript ‹_›

theorem Writes.room {run : Run α} (h : Writes prints run machine)
    (hroom : machine.output.room = none) {value : α} {after : Machine}
    (hrun : run machine = .ok value after) : after.output.room = none := by
  obtain ⟨written, hwritten⟩ : ∃ written, machine.output = ⟨written, none⟩ :=
    ⟨machine.output.written, by rw [← hroom]⟩
  have hsame := h.of_fits (Output.writeAll_unbounded written prints) machine.transcript
  rw [← hwritten, hrun] at hsame
  have hafter : after.output = _ := congrArg Machine.output (EStateM.Result.ok.inj hsame).2
  rw [hafter]

theorem writes_silent {run : Run α} (h : Silent run) : Writes [] run machine := by
  intro output transcript
  simpa [Output.writeAll] using h machine output transcript

theorem writes_bind {run : Run β} {next : β → Run α} {rest : β → Machine → List Print}
    (hrun : Writes prints run machine)
    (hnext : ∀ value after, run machine = .ok value after →
      Writes (rest value after) (next value) after) :
    Writes (prints ++ match run machine with
      | .ok value after => rest value after
      | .error .. => []) (run >>= next) machine := by
  intro output transcript
  cases hfirst : output.writeAll prints with
  | mk middle crossing =>
      cases crossing with
      | some print =>
          rw [Output.writeAll_append_of_stops hfirst]
          obtain ⟨stopped, houtput, hstops⟩ := hrun.of_stops hfirst transcript
          exact ⟨stopped, houtput, by simp [bind, EStateM.bind, hstops]⟩
      | none =>
          rw [Output.writeAll_append_of_fits hfirst, Print.copied_append]
          have hsame := hrun.of_fits hfirst transcript
          cases hbehind : run machine with
          | ok value after =>
              rw [hbehind] at hsame
              have hbind : (run >>= next) { machine with output, transcript } =
                  next value { after with
                    output := middle, transcript := Print.copied transcript prints } := by
                simp [bind, EStateM.bind, hsame, withPrinted]
              have hbind' : (run >>= next) machine = next value after := by
                simp [bind, EStateM.bind, hbehind]
              rw [hbind, hbind']
              exact hnext value after hbehind middle _
          | error reason after =>
              rw [hbehind] at hsame
              simp [Output.writeAll, bind, EStateM.bind, hsame, hbehind, withPrinted]

theorem writes_nested {name : String} {body : Run α}
    (h : Writes prints body (machine.entered name)) :
    Writes prints (nested name body) machine := by
  refine writes_of_cases (fun output after transcript hfits => ?_)
    fun output after print transcript hstops => ?_
  · have hsame : body ({ machine with output, transcript }.entered name) = _ :=
      h.of_fits hfits transcript
    simp only [nested, hsame]
    cases body (machine.entered name) <;> rfl
  · obtain ⟨stopped, houtput, hbody⟩ := h.of_stops hstops transcript
    have hsame : body ({ machine with output, transcript }.entered name) = _ := hbody
    exact ⟨stopped.left, houtput, by simp only [nested, hsame]⟩

theorem writes_emit (text : String) (span : Span) (hroom : machine.output.room = none) :
    Writes [⟨text, span⟩] (emit text span) machine := by
  have hopen : emit text span machine = .ok .nothing { machine with
      output := (machine.output.write text).1
      transcript := machine.transcript.map (· ++ text) } := by
    simp [emit_eq, Output.write, hroom]
  intro output transcript
  rw [hopen]
  simp only [Output.writeAll, emit_eq]
  cases output.write text with
  | mk after fits =>
      cases fits with
      | true => simp [withPrinted, Print.copied, Print.joined]
      | false => exact ⟨{ machine with output := after, transcript }, rfl, rfl⟩

theorem writes_applyBuiltin (builtin : Builtin) (args : List Value) (span : Span)
    (hroom : machine.output.room = none) :
    Writes ((builtin.prints? args).map (⟨·, span⟩)).toList (applyBuiltin builtin args span)
      machine := by
  cases builtin with
  | clock => exact writes_silent hidden_readClock.silent
  | print => exact writes_emit _ span hroom
  | println => exact writes_emit _ span hroom

end Writes

def PrintsAt (fuel : Nat) : Prop :=
  ∀ (task : Task) (machine : Machine), machine.output.room = none →
    Writes (Moment.prints ⟨fuel, task, machine⟩) (task.run fuel) machine

end Run

open Run

def Account.prints (fuel : Nat) : Account where
  Says moments run machine :=
    machine.output.room = none → Writes (Moment.printsOf fuel moments) run machine
  hidden h _ := writes_silent h.silent
  bind := by
    intro α β run next machine moments rest hrun hnext hroom
    have hrun := hrun hroom
    have hboth := writes_bind hrun fun value after hresult =>
      hnext value after hresult (hrun.room hroom hresult)
    unfold behind
    cases hresult : run machine with
    | ok value after => simpa [Moment.printsOf, hresult] using hboth
    | error reason after => simpa [hresult] using hboth

theorem Run.printsAt (fuel : Nat) : PrintsAt fuel := by
  induction fuel with
  | zero =>
      intro task machine hroom
      rw [Task.run_zero, Moment.prints_zero]
      exact writes_silent (hidden_throw _).silent
  | succ fuel ih =>
      have hat : (Account.prints fuel).At fuel := fun task machine hroom => by
        simpa [Moment.printsOf] using ih task machine hroom
      intro task machine hroom
      rw [Moment.prints_succ]
      cases task with
      | call callable args span =>
          cases callable with
          | builtin builtin =>
              simp only [Task.run, call, Task.parts, Moment.printsOf, List.flatMap_nil,
                List.append_nil]
              exact writes_applyBuiltin builtin args span hroom
          | closure closure =>
              simp only [Task.run, call]
              exact writes_nested (Account.body_says hat closure args span hroom)
      | _ => exact Account.parts_say hat _ (by simp) hroom

end Scriptlet
