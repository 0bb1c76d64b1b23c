import Scriptlet.Proofs.Printing.Run
import Scriptlet.Proofs.Tree.Parsed

/-! A bound on the output only cuts off. Until the output is full nothing in a run tells whether
there is a bound, and what is written is the beginning of what would be written without it. -/

namespace Scriptlet

namespace Program

variable {program : Program} {fuel : Nat} {machine : Machine} {output after : Output}

theorem writes (hroom : machine.output.room = none) :
    Run.Writes (program.prints fuel machine)
      (Run.executeAll fuel Machine.globals .nothing program.statements) machine :=
  Run.printsAt fuel (.executeAll Machine.globals .nothing program.statements) machine hroom

/-- Over an output for which all texts fit, a program runs as over one without a bound. -/
theorem run_of_fits (hroom : machine.output.room = none)
    (hfits : output.writeAll (program.prints fuel machine) = (after, none))
    (transcript : Option String) :
    program.run fuel { machine with output, transcript } =
      { program.run fuel machine with
        machine := { (program.run fuel machine).machine with
          output := after
          transcript := Print.copied transcript (program.prints fuel machine) } } := by
  have hsame := (writes hroom).of_fits hfits transcript
  unfold run
  rw [hsame]
  cases Run.executeAll fuel Machine.globals .nothing program.statements machine with
  | ok flow after => rfl
  | error reason after => cases reason <;> rfl

theorem run_of_stops {print : Print} (hroom : machine.output.room = none)
    (hstops : output.writeAll (program.prints fuel machine) = (after, some print)) :
    (program.run fuel { machine with output }).result =
        .error (.fault ⟨.outputFull, print.span⟩) ∧
      (program.run fuel { machine with output }).machine.output = after := by
  obtain ⟨stopped, houtput, hrun⟩ := (writes hroom).of_stops hstops machine.transcript
  unfold run
  rw [hrun]
  exact ⟨rfl, houtput⟩

section Unbounded

variable (program fuel machine) (written : ByteArray)

theorem run_unbounded :
    let start : Machine := { machine with output := ⟨written, none⟩ }
    let prints := program.prints fuel start
    (program.run fuel start).machine.output = ⟨written ++ (Print.joined prints).toUTF8, none⟩ ∧
      (program.run fuel start).machine.transcript = Print.copied machine.transcript prints := by
  intro start prints
  have hroom : start.output.room = none := rfl
  have hsame := run_of_fits hroom (Output.writeAll_unbounded written prints) machine.transcript
  exact ⟨congrArg (·.machine.output) hsame, congrArg (·.machine.transcript) hsame⟩

theorem output_run :
    let start : Machine := { machine with output := ⟨written, none⟩ }
    (program.run fuel start).machine.output =
      ⟨written ++ (Print.joined (program.prints fuel start)).toUTF8, none⟩ :=
  (run_unbounded program fuel machine written).1

theorem run_of_room {room : Nat} :
    let start : Machine := { machine with output := ⟨written, none⟩ }
    let text := Print.joined (program.prints fuel start)
    text.utf8ByteSize ≤ room →
      program.run fuel { machine with output := ⟨written, some room⟩ } =
        { program.run fuel start with
          machine.output := ⟨written ++ text.toUTF8, some (room - text.utf8ByteSize)⟩ } := by
  intro start text hle
  have hroom : start.output.room = none := rfl
  have hsame := run_of_fits hroom (@Output.writeAll_bounded _ written _ hle) machine.transcript
  rw [← (run_unbounded program fuel machine written).2] at hsame
  exact hsame

end Unbounded

/-- As long as the output is not full, nothing tells that it has a bound. -/
theorem run_unbounded_or_full (program : Program) (fuel : Nat) (machine : Machine) :
    let unbounded := program.run fuel { machine with output := ⟨machine.output.written, none⟩ }
    (∃ room, program.run fuel machine = { unbounded with
        machine.output := ⟨unbounded.machine.output.written, room⟩ } ∧
      (machine.output.room = none → room = none)) ∨
      machine.output.room ≠ none ∧
        ∃ span, (program.run fuel machine).result = .error (.fault ⟨.outputFull, span⟩) := by
  intro unbounded
  let start : Machine := { machine with output := ⟨machine.output.written, none⟩ }
  have hroom : start.output.room = none := rfl
  have hwritten := output_run program fuel machine machine.output.written
  cases hbound : machine.output.room with
  | none =>
      have hmachine : start = machine := by simp only [start, ← hbound]
      refine .inl ⟨none, ?_, fun _ => rfl⟩
      rw [hwritten, ← hwritten]
      exact congrArg (program.run fuel) hmachine.symm
  | some room =>
      have hmachine : { start with output := ⟨machine.output.written, some room⟩ } = machine := by
        simp only [start, ← hbound]
      by_cases hle : (Print.joined (program.prints fuel start)).utf8ByteSize ≤ room
      · have hfits := run_of_room program fuel machine machine.output.written hle
        refine .inl ⟨some (room - (Print.joined (program.prints fuel start)).utf8ByteSize), ?_,
          fun h => by cases h⟩
        rw [hwritten, ← hmachine]
        exact hfits
      · obtain ⟨_, print, _, _, _, _, hcut⟩ :=
          @Output.writeAll_cut _ machine.output.written _ (Nat.lt_of_not_le hle)
        have hstops := run_of_stops hroom hcut
        rw [hmachine] at hstops
        exact .inr ⟨by simp, print.span, hstops.1⟩

end Program

namespace Machine

/-- What one machine writes is the transcript of the other one, whose own output nobody reads. -/
def Captures (capturing machine : Machine) : Prop :=
  ∃ unread transcript, machine.output = ⟨transcript.toUTF8, none⟩ ∧
    capturing = { machine with output := ⟨unread, none⟩, transcript := some transcript }

variable {capturing machine : Machine}

theorem captures_new (clock : Nat → Int64) :
    (Machine.capturing clock).Captures (new .unbounded clock) :=
  ⟨.empty, "", by simp [new, Output.unbounded], rfl⟩

theorem Captures.printed_eq (h : capturing.Captures machine) :
    capturing.printed.toUTF8 = machine.output.written := by
  obtain ⟨unread, transcript, houtput, rfl⟩ := h
  rw [houtput]
  rfl

/-- A program does not tell the two machines apart, and leaves two such machines behind. -/
theorem Captures.run (h : capturing.Captures machine) (program : Program) (fuel : Nat) :
    (program.run fuel capturing).result = (program.run fuel machine).result ∧
      (program.run fuel capturing).machine.Captures (program.run fuel machine).machine := by
  obtain ⟨unread, transcript, houtput, rfl⟩ := h
  let text := Print.joined (program.prints fuel machine)
  have hroom : machine.output.room = none := by rw [houtput]
  have hsame := Program.run_of_fits hroom
    (Output.writeAll_unbounded unread (program.prints fuel machine)) (some transcript)
  have hwritten : (program.run fuel machine).machine.output =
      ⟨transcript.toUTF8 ++ text.toUTF8, none⟩ := by
    have hstart : { machine with output := ⟨transcript.toUTF8, none⟩ } = machine := by
      rw [← houtput]
    simpa only [hstart] using Program.output_run program fuel machine transcript.toUTF8
  rw [hsame]
  refine ⟨rfl, unread ++ text.toUTF8, transcript ++ text, ?_, rfl⟩
  rw [hwritten]
  simp

theorem Captures.runAll (h : capturing.Captures machine) (programs : List (Nat × Program)) :
    (capturing.runAll programs).Captures (machine.runAll programs) := by
  induction programs generalizing capturing machine with
  | nil => exact h
  | cons program rest ih => exact ih (h.run program.2 program.1).2

end Machine

namespace Program

/-- A program that is run with room for so many bytes, and without a bound. If all that it prints
fits, nothing but the room that is left tells the two runs apart. Otherwise the first call whose
text does not fit ends the program with an error, and as many bytes are written as there was room
for. A machine that keeps a transcript does the same without a bound, and its transcript is the
text that is written there; so a new one that has run any programs has printed what is written. -/
theorem run_bounded (program : Program) (fuel : Nat) (machine : Machine) (written : ByteArray)
    (room : Nat) :
    let unbounded := program.run fuel { machine with output := ⟨written, none⟩ }
    let bounded := program.run fuel { machine with output := ⟨written, some room⟩ }
    let prints := program.prints fuel { machine with output := ⟨written, none⟩ }
    let text := Print.joined prints
    unbounded.machine.output = ⟨written ++ text.toUTF8, none⟩ ∧
      (text.utf8ByteSize ≤ room → bounded = { unbounded with
        machine.output := ⟨written ++ text.toUTF8, some (room - text.utf8ByteSize)⟩ }) ∧
      (room < text.utf8ByteSize → ∃ earlier print later, prints = earlier ++ print :: later ∧
        (Print.joined earlier).utf8ByteSize ≤ room ∧
        room < (Print.joined (earlier ++ [print])).utf8ByteSize ∧
        bounded.result = .error (.fault ⟨.outputFull, print.span⟩) ∧
        bounded.machine.output.written = written ++ text.toUTF8.extract 0 room) ∧
      (∀ (unread : ByteArray) (before : String),
        let capturing := program.run fuel
          { machine with output := ⟨unread, none⟩, transcript := some before }
        capturing = { unbounded with
            machine.output := ⟨unread ++ text.toUTF8, none⟩
            machine.transcript := some (before ++ text) } ∧
          capturing.machine.printed = before ++ text ∧
          (before.toUTF8 = written →
            capturing.machine.printed.toUTF8 = unbounded.machine.output.written)) ∧
      ∀ (clock : Nat → Int64) (earlier : List (Nat × Program)),
        let programs := earlier ++ [(fuel, program)]
        ((Machine.capturing clock).runAll programs).printed.toUTF8 =
          ((Machine.new .unbounded clock).runAll programs).output.written := by
  intro unbounded bounded prints text
  have hroom : ({ machine with output := ⟨written, none⟩ } : Machine).output.room = none := rfl
  have hwritten : unbounded.machine.output = ⟨written ++ text.toUTF8, none⟩ :=
    output_run program fuel machine written
  refine ⟨hwritten, run_of_room program fuel machine written, fun hlt => ?_,
    fun unread before => ?_, fun clock earlier => ?_⟩
  · obtain ⟨earlier, print, later, hprints, hearlier, hcrossing, hcut⟩ :=
      @Output.writeAll_cut prints written room hlt
    obtain ⟨hresult, houtput⟩ := run_of_stops hroom hcut
    exact ⟨earlier, print, later, hprints, hearlier, hcrossing, hresult,
      congrArg (·.written) houtput⟩
  · intro capturing
    have hsame : capturing = { unbounded with
        machine.output := ⟨unread ++ text.toUTF8, none⟩
        machine.transcript := some (before ++ text) } :=
      run_of_fits hroom (Output.writeAll_unbounded unread prints) (some before)
    refine ⟨hsame, ?_, fun hbefore => ?_⟩
    · rw [hsame]
      rfl
    · rw [hsame, hwritten, ← hbefore]
      simp [Machine.printed]
  · exact ((Machine.captures_new clock).runAll _).printed_eq

/-- The second text is too long by two bytes. -/
def twoLines : Program := .read "println(12)\nprintln(345)"

theorem twoLines_bounded :
    let prints := twoLines.prints 20 (.new .unbounded fun _ => 0)
    let bounded := twoLines.run 20 (.new (.bounded 5) fun _ => 0)
    (∃ print ∈ prints, bounded.result = .error (.fault ⟨.outputFull, print.span⟩)) ∧
      bounded.machine.output.written = "12\n34".toUTF8 ∧
      (twoLines.run 20 (.capturing fun _ => 0)).machine.printed = "12\n345\n" := by
  intro prints bounded
  have hlt : 5 < (Print.joined prints).utf8ByteSize := by decide +kernel
  have hbytes : (Print.joined prints).toUTF8.extract 0 5 = "12\n34".toUTF8 := by decide +kernel
  have htext : Print.joined prints = "12\n345\n" := by decide +kernel
  obtain ⟨_, _, hcut, hcaptures, _⟩ :=
    run_bounded twoLines 20 (.new .unbounded fun _ => 0) .empty 5
  obtain ⟨earlier, print, later, hprints, _, _, hresult, hwritten⟩ := hcut hlt
  have hsplit : prints = earlier ++ print :: later := hprints
  have hmem : print ∈ prints := by simp [hsplit]
  refine ⟨⟨print, hmem, hresult⟩, hwritten.trans ?_, (hcaptures .empty "").2.1.trans htext⟩
  rw [ByteArray.empty_append]
  exact hbytes

end Program

end Scriptlet
