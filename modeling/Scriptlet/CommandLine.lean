import Scriptlet.CommandLine.LogFilter
import Scriptlet.CommandLine.Options
import Scriptlet.CommandLine.TypedLine
import Scriptlet.Session
import Scriptlet.Syntax.Json
import Scriptlet.Syntax.Sexp

/-! The program around the language: it runs or dumps one script, or reads lines and runs each
as a script of one session. Everything but reading and writing is here. -/

namespace Scriptlet

inductive ReadFault where
  | missing
  | notText
  | other (reason : String)
deriving DecidableEq, Repr

def ReadFault.message : ReadFault → String
  | missing => "No such file or directory (os error 2)"
  | notText => "stream did not contain valid UTF-8"
  | other reason => reason

structure Outcome where
  exitCode : Nat
  stdout : String
  stderr : String
deriving DecidableEq, Repr

namespace CommandLine

def usage : String :=
  "An interpreter for the flyt scripting language\n\n" ++
  "Usage: flyt [OPTIONS] [FILE]\n\n" ++
  "Arguments:\n" ++
  "  [FILE]  Script to run (omit for REPL)\n\n" ++
  "Options:\n" ++
  "      --no-check                 Run without static type checking\n" ++
  "      --dump-tokens              Dump tokens and exit\n" ++
  "      --dump-ast                 Dump AST and exit\n" ++
  "      --ast-format <AST_FORMAT>  AST output format [default: sexp] " ++
  "[possible values: sexp, json]\n" ++
  "      --log <FILTER>             Log filter such as `debug` or `flyt=trace`; " ++
  "overrides FLYT_LOG\n" ++
  "  -h, --help                     Print help\n"

def lines (texts : List String) : String := String.join (texts.map (· ++ "\n"))

def logText (filter : LogFilter) (events : List Event) : String :=
  lines ((events.filter filter.shows).map Event.text)

def complaints (filter : LogFilter) : String :=
  lines (filter.malformed.map fun rule => s!"ignoring {rule}: invalid filter directive")

def failureText (message : String) (causes : List String) : String :=
  "Error: " ++ message ++ "\n" ++
    if causes.isEmpty then "" else "\nCaused by:\n" ++ lines (causes.map ("    " ++ ·))

def fileText (content : Except ReadFault ByteArray) : Except ReadFault String := do
  match String.fromUTF8? (← content) with
  | some text => return text
  | none => throw .notText

/-- The dump of a script that the options ask for, if they ask for one. Tokens go before the
tree. -/
def dump? (options : Options) (source : String) :
    Option (List Event × Except CompileError String) :=
  if options.dumpTokens then
    match Token.scan source with
    | .ok tokens => some ([.scanned tokens.length], .ok (lines (tokens.map Token.text)))
    | .error e => some ([], .error (.lex e))
  else if options.dumpTree then
    let reading := Program.ofSource source 0
    some (reading.events, reading.result.map fun program =>
      match options.format.getD .sexp with
      | .json => program.json ++ "\n"
      | .sexp => program.sexp)
  else none

def runSource (options : Options) (filter : LogFilter) (source : String) (clock : Nat → Int64)
    (fuel : Nat) : Outcome :=
  match dump? options source with
  | some (events, .ok text) => ⟨0, text, logText filter events⟩
  | some (events, .error e) => ⟨1, "", logText filter events ++ lines [e.diagnostic.text]⟩
  | none =>
      let (session, result) := (Session.new (!options.noCheck) .unbounded clock).eval fuel source
      let stdout := textOfBytes session.machine.output.written
      let log := logText filter session.machine.events.toList
      match result with
      | .ok _ => ⟨0, stdout, log⟩
      | .error (.compile e) => ⟨1, stdout, log ++ lines [e.diagnostic.text]⟩
      | .error (.runtime e) => ⟨1, stdout, log ++ failureText e.diagnostic.text []⟩
      | .error .outOfFuel => ⟨1, stdout, log ++ failureText "out of fuel" []⟩

def runFile (options : Options) (filter : LogFilter) (name : String)
    (content : Except ReadFault ByteArray) (clock : Nat → Int64) (fuel : Nat) : Outcome :=
  let outcome := match fileText content with
    | .ok source => runSource options filter source clock fuel
    | .error fault => ⟨1, "", failureText s!"read source file '{name}'" [fault.message]⟩
  { outcome with stderr := complaints filter ++ outcome.stderr }

structure Reply where
  stdout : String
  stderr : String
deriving DecidableEq, Repr

/-- Takes out of a session what it has written and what was observed since the last time. -/
def collect (filter : LogFilter) (session : Session) (message : String) : Session × Reply :=
  let machine := session.machine
  ({ session with machine := { machine with output := .unbounded, events := #[] } },
    ⟨textOfBytes machine.output.written, logText filter machine.events.toList ++ message⟩)

/-- One line typed by a user: what the script prints and, on a line of its own, its value
unless there is none. Blank lines are skipped. -/
def respond (filter : LogFilter) (fuel : Nat) (session : Session) (line : String) :
    Session × Reply :=
  let source := trim (typedText line)
  if source.isEmpty then (session, ⟨"", ""⟩)
  else
    let (session, result) := session.eval fuel source
    let (session, reply) := collect filter session <| match result with
      | .ok _ => ""
      | .error (.compile e) => lines [e.diagnostic.text]
      | .error (.runtime e) => lines [e.diagnostic.text]
      | .error .outOfFuel => lines ["out of fuel"]
    match result with
    | .ok .nothing | .error _ => (session, reply)
    | .ok value => (session, { reply with stdout := reply.stdout ++ value.toText ++ "\n" })

def newSession (options : Options) (clock : Nat → Int64) : Session :=
  .new (!options.noCheck) .unbounded clock

def runLines (options : Options) (filter : LogFilter) (input : String) (clock : Nat → Int64)
    (fuel : Nat) : Outcome :=
  let (_, reply) := (inputLines input).foldl
    (fun (session, said) line =>
      let (session, reply) := respond filter fuel session line
      (session, ⟨said.stdout ++ reply.stdout, said.stderr ++ reply.stderr⟩))
    (newSession options clock, Reply.mk "" (complaints filter))
  ⟨0, reply.stdout, reply.stderr⟩

def torn : Outcome := ⟨101, "", "a name in the log filter ends within a character\n"⟩

def run (arguments : List String) (read : String → Except ReadFault ByteArray) (input : String)
    (clock : Nat → Int64) (fuel : Nat) : Outcome :=
  match Options.parse arguments with
  | .error .help => ⟨0, usage, ""⟩
  | .error .wrong => ⟨2, "", "error: wrong arguments\n"⟩
  | .ok options =>
      match LogFilter.ofOption? options.log with
      | none => torn
      | some filter =>
          match options.file with
          | some name => runFile options filter name (read name) clock fuel
          | none => runLines options filter input clock fuel

end CommandLine

end Scriptlet
