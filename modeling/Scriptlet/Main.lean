import Scriptlet.CommandLine
import Std.Time.DateTime.Timestamp

/-! The command line: reads files and lines, and writes what the library answers. -/

namespace Scriptlet.CommandLine

def ample : Nat := 4000000000000000000

def readFile (name : String) : IO (Except ReadFault ByteArray) := do
  try
    return .ok (← IO.FS.readBinFile name)
  catch
    | .noFileOrDirectory .. => return .error .missing
    | e => return .error (.other (toString e))

/-- A clock that begins now and moves on at every reading. -/
def clockFromNow : IO (Nat → Int64) := do
  let now := (← Std.Time.Timestamp.now).toMillisecondsSinceUnixEpoch.val
  return fun reading => .ofInt (now + reading)

partial def converse (filter : LogFilter) (input : IO.FS.Stream) (session : Session) :
    IO Unit := do
  let line ← input.getLine
  if line.isEmpty then return
  let (session, reply) := respond filter ample session line
  IO.print reply.stdout
  IO.eprint reply.stderr
  converse filter input session

def finish (outcome : Outcome) : IO UInt32 := do
  IO.print outcome.stdout
  IO.eprint outcome.stderr
  return outcome.exitCode.toUInt32

def start (arguments : List String) : IO UInt32 := do
  let clock ← clockFromNow
  match Options.parse arguments with
  | .error _ => finish (run arguments (fun _ => .error .missing) "" clock ample)
  | .ok options =>
      match LogFilter.ofOption? options.log, options.file with
      | none, _ => finish torn
      | some filter, some name =>
          finish (runFile options filter name (← readFile name) clock ample)
      | some filter, none =>
          IO.eprint (complaints filter)
          converse filter (← IO.getStdin) (newSession options clock)
          return 0

end Scriptlet.CommandLine

def main (arguments : List String) : IO UInt32 := Scriptlet.CommandLine.start arguments
