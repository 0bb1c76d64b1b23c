import Scriptlet.Proofs.Errors.Check
import Scriptlet.Proofs.Errors.Run
import Scriptlet.Proofs.Names.Script

/-! Every error points into the source text that it was found in, whichever part of the language
found it: the scanner, the parser, the checker or the run. -/

namespace Scriptlet

/-- The span of an error lies in the source text. At the end of the text the parser may point at
the one byte that would follow it. -/
def Diagnostic.PointsInto (source : String) (d : Diagnostic) : Prop :=
  d.span.Within source ∨ d.stage = .parse ∧ d.span = .atEnd source 1

theorem Program.ofSource_points (source : String) (unnamed : Nat) :
    match (ofSource source unnamed).result with
    | .ok program => SpansWithin source program.nodes
    | .error e => e.diagnostic.PointsInto source := by
  cases hscan : Token.scan source with
  | error e =>
      simp only [ofSource, hscan]
      exact .inl (LexError.span_within hscan)
  | ok tokens =>
      have hexact := Token.exact_of_layout (Token.layout_of_scanFrom hscan)
      have hkeeps := ofTokens_keeps hexact unnamed
      cases hparsed : (ofTokens tokens unnamed).result with
      | error e =>
          rw [hparsed] at hkeeps
          simp only [ofSource, hscan, hparsed]
          exact hkeeps.imp_right fun hend => ⟨rfl, hend⟩
      | ok program =>
          rw [hparsed] at hkeeps
          simp only [ofSource, hscan, hparsed]
          exact hkeeps

namespace Session

variable {session : Session} {source : String}

theorem compile_points (session : Session) (source : String) :
    match (session.compile source).2 with
    | .ok program => SpansWithin source program.nodes
    | .error e => e.diagnostic.PointsInto source := by
  have hreading := Program.ofSource_points source session.unnamed
  cases hread : (Program.ofSource source session.unnamed).result with
  | error e =>
      rw [hread] at hreading
      simp only [compile, hread]
      exact hreading
  | ok program =>
      rw [hread] at hreading
      have fresh := Program.ofSource_fresh hread
      simp only [compile, hread, check, observe]
      cases session.checker with
      | none => exact hreading
      | some checker =>
          have hspans := Program.check_spansWithin fresh checker hreading
          cases hcheck : (program.check checker).result with
          | ok _ =>
              simp only [hcheck]
              exact hspans
          | error e =>
              simp only [hcheck]
              exact .inl ((Program.spanOf_check fresh hcheck).within hspans)

theorem check_machine (session : Session) (program : Program) :
    ∃ events, (session.check program).1.machine = { session.machine with events } := by
  unfold check
  split
  · exact ⟨_, rfl⟩
  · simp only
    split <;> exact ⟨_, rfl⟩

theorem compile_machine (session : Session) (source : String) :
    ∃ events, (session.compile source).1.machine = { session.machine with events } := by
  simp only [compile]
  split
  · exact ⟨_, rfl⟩
  · rename_i program _
    obtain ⟨events, hchecked⟩ := check_machine
      ({ session with unnamed := (Program.ofSource source session.unnamed).unnamed }.observe
        (Program.ofSource source session.unnamed).events) program
    split
    all_goals
      rename_i hcheck
      rw [hcheck] at hchecked
      exact ⟨events, hchecked⟩

end Session

theorem Machine.hold_new (output : Output) (clock : Nat → Int64) (nodes : List Node) :
    (Machine.new output clock).scopes.Hold (Value.From nodes) := by
  intro id name value hvalue
  rw [Machine.own?_new] at hvalue
  split at hvalue
  · obtain ⟨builtin, _, rfl⟩ := Option.map_eq_some_iff.mp hvalue
    trivial
  · cases hvalue

theorem Blames.within {source : String} {nodes : List Node} {span : Span}
    (h : Blames nodes span) (hnodes : SpansWithin source nodes) : span.Within source := by
  obtain ⟨expr, hmem, _, rfl⟩ := h
  exact hnodes _ hmem _ (by simp [Node.spans])

theorem Session.run_error {session : Session} {fuel : Nat} {program : Program}
    {error : ScriptError} (h : (session.run fuel program).2 = .error error) :
    error = .outOfFuel ∨ ∃ e, error = .runtime e ∧
      (program.run fuel session.machine).result = .error (.fault e) := by
  unfold run at h
  simp only at h
  split at h
  · cases h
  · rename_i e heq
    exact .inr ⟨e, (Except.error.inj h).symm, heq⟩
  · exact .inl (Except.error.inj h).symm

theorem Session.eval_points {session : Session} {source : String} {fuel : Nat}
    (hold : ∀ nodes, session.machine.scopes.Hold (Value.From nodes)) {error : ScriptError}
    (h : (session.eval fuel source).2 = .error error) :
    (∀ d ∈ error.diagnostic?, d.PointsInto source) ∧
      ∀ e, error = .runtime e → ∃ program,
        (session.compile source).2 = .ok program ∧ Blames program.nodes e.span := by
  have hpoints := session.compile_points source
  obtain ⟨events, hmachine⟩ := session.compile_machine source
  unfold eval at h
  cases hcompile : session.compile source with | mk after result
  rw [hcompile] at h hpoints hmachine
  cases result with
  | error e =>
      obtain rfl : .compile e = error := Except.error.inj h
      refine ⟨fun d hd => ?_, nofun⟩
      obtain rfl : e.diagnostic = d := Option.some.inj hd
      exact hpoints
  | ok program =>
      rcases run_error h with rfl | ⟨e, rfl, hrun⟩
      · exact ⟨nofun, nofun⟩
      · have hscopes : after.machine.scopes = session.machine.scopes :=
          congrArg (·.scopes) hmachine
        have hblames := Program.run_blames (hscopes ▸ hold program.nodes) hrun
        refine ⟨fun d hd => ?_, fun other hother => ?_⟩
        · obtain rfl : e.diagnostic = d := Option.some.inj hd
          exact .inl (hblames.within hpoints)
        · obtain rfl : e = other := ScriptError.runtime.inj hother
          exact ⟨program, rfl, hblames⟩

theorem Session.evalAlone_new (check : Bool) (output : Output) (clock : Nat → Int64)
    (unnamed : Nat) : { Session.new check output clock with unnamed }.evalAlone =
      { Session.new check output clock with unnamed }.eval := by
  cases check <;> rfl

/-- Whatever goes wrong with a script that is run on a new machine, the error points into its
source text. An error of the run has the span of an expression of the program that can fail. -/
theorem Session.error_points (check : Bool) (output : Output) (clock : Nat → Int64)
    (unnamed fuel : Nat) (source : String) {error : ScriptError}
    (h : ({ Session.new check output clock with unnamed }.evalAlone fuel source).2 =
      .error error) :
    (∀ d ∈ error.diagnostic?, d.PointsInto source) ∧
      ∀ e, error = .runtime e → ∃ program,
        ({ Session.new check output clock with unnamed }.compile source).2 = .ok program ∧
          Blames program.nodes e.span := by
  rw [evalAlone_new] at h
  exact eval_points (Machine.hold_new output clock) h

/-- The division fails in the body of a function that is called on another line. -/
def dividing : String := "let half = fn(x: int) -> int \x7b return 1 / x \x7d\nprintln(half(0))"

theorem Session.dividing_points :
    let start := { Session.new true .unbounded (fun _ => 0) with unnamed := 2 }
    let error : RuntimeError := ⟨.divisionByZero, ⟨38, 5, 1⟩⟩
    (start.evalAlone 60 dividing).2 = .error (.runtime error) ∧
      error.diagnostic.PointsInto dividing ∧ ∃ program,
        (start.compile dividing).2 = .ok program ∧ Blames program.nodes error.span := by
  intro start error
  have herror : (start.evalAlone 60 dividing).2 = .error (.runtime error) := by decide +kernel
  have hpoints := error_points true .unbounded (fun _ => 0) 2 60 dividing herror
  exact ⟨herror, hpoints.1 _ rfl, hpoints.2 _ rfl⟩

end Scriptlet
