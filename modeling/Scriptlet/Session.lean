import Scriptlet.Eval
import Scriptlet.Syntax.Parse
import Scriptlet.Token.Scan

/-! Scripts from source text to result, one after another on one machine. A script that does
not compile changes nothing but the number of the next function without a name. -/

namespace Scriptlet

inductive CompileError where
  | lex (error : LexError)
  | parse (error : ParseError)
  | typecheck (error : TypeError)
deriving DecidableEq

def CompileError.diagnostic : CompileError → Diagnostic
  | lex e => e.diagnostic
  | parse e => e.diagnostic
  | typecheck e => e.diagnostic

inductive ScriptError where
  | compile (error : CompileError)
  | runtime (error : RuntimeError)
  | outOfFuel
deriving DecidableEq

instance {α : Type} (result : Except ScriptError α) (error : ScriptError) :
    Decidable (result = .error error) :=
  match result with
  | .ok _ => isFalse nofun
  | .error other => decidable_of_iff (other = error) (by simp)

def ScriptError.diagnostic? : ScriptError → Option Diagnostic
  | compile e => some e.diagnostic
  | runtime e => some e.diagnostic
  | outOfFuel => none

/-- A source text as a program, with what could be observed on the way. -/
structure Reading where
  result : Except CompileError Program
  unnamed : Nat
  events : List Event

namespace Program

def ofSource (source : String) (unnamed : Nat) : Reading :=
  match Token.scan source with
  | .error e => ⟨.error (.lex e), unnamed, []⟩
  | .ok tokens =>
      let parsed := ofTokens tokens unnamed
      match parsed.result with
      | .error e => ⟨.error (.parse e), parsed.unnamed, [.scanned tokens.length]⟩
      | .ok program =>
          ⟨.ok program, parsed.unnamed,
            [.scanned tokens.length, .parsed program.statements.length]⟩

end Program

/-- What is carried from one script to the next. A session without a checker runs scripts
without checking their types. -/
structure Session where
  checker : Option Checker
  unnamed : Nat
  machine : Machine

namespace Session

def new (check : Bool) (output : Output) (clock : Nat → Int64) : Session :=
  ⟨if check then some .new else none, 0, .new output clock⟩

def observe (session : Session) (events : List Event) : Session :=
  { session with machine :=
      { session.machine with events := session.machine.events ++ events.toArray } }

/-- Checks a program if the session checks types, and answers it with its slots filled. A
program that is rejected leaves the session's types as they were. -/
def check (session : Session) (program : Program) : Session × Except TypeError Program :=
  match session.checker with
  | none => (session, .ok program)
  | some checker =>
      let checked := program.check checker
      match checked.result with
      | .ok _ =>
          ({ session with checker := some checked.checker }.observe
            [.checked program.statements.length], .ok checked.node)
      | .error e => (session.observe [.rejected e], .error e)

/-- Reads and checks one script, which sees what the scripts before it declared. -/
def compile (session : Session) (source : String) : Session × Except CompileError Program :=
  let reading := Program.ofSource source session.unnamed
  let session := { session with unnamed := reading.unnamed }.observe reading.events
  match reading.result with
  | .error e => (session, .error e)
  | .ok program =>
      match session.check program with
      | (session, .error e) => (session, .error (.typecheck e))
      | (session, .ok program) => (session, .ok program)

def run (session : Session) (fuel : Nat) (program : Program) :
    Session × Except ScriptError Value :=
  let ended := program.run fuel session.machine
  let session := { session with machine := ended.machine }
  match ended.result with
  | .ok value => (session, .ok value)
  | .error (.fault e) => (session, .error (.runtime e))
  | .error .outOfFuel => (session, .error .outOfFuel)

def eval (session : Session) (fuel : Nat) (source : String) :
    Session × Except ScriptError Value :=
  match session.compile source with
  | (session, .error e) => (session, .error (.compile e))
  | (session, .ok program) => session.run fuel program

/-- Runs one script that is checked as if it were the first. -/
def evalAlone (session : Session) (fuel : Nat) (source : String) :
    Session × Except ScriptError Value :=
  { session with checker := session.checker.map fun _ => .new }.eval fuel source

end Session

end Scriptlet
