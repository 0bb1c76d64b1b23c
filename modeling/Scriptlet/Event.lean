import Scriptlet.Ty.Check
import Scriptlet.Value.Operate

/-! What can be observed of the work on a script while it goes on. -/

namespace Scriptlet

inductive EventLevel where
  | error
  | warn
  | info
  | debug
  | trace
deriving DecidableEq, Repr

namespace EventLevel

def name : EventLevel → String
  | error => "ERROR"
  | warn => "WARN"
  | info => "INFO"
  | debug => "DEBUG"
  | trace => "TRACE"

def rank : EventLevel → Nat
  | error => 1
  | warn => 2
  | info => 3
  | debug => 4
  | trace => 5

end EventLevel

inductive Event where
  | scanned (tokens : Nat)
  | parsed (statements : Nat)
  | checked (statements : Nat)
  | rejected (reason : TypeError)
  | called (name : String) (depth : Nat)
  | aborted (reason : RuntimeError)
deriving DecidableEq

namespace Event

def level : Event → EventLevel
  | called .. => .trace
  | _ => .debug

def target : Event → String
  | scanned _ => "flyt::scanner"
  | parsed _ => "flyt::parser"
  | checked _ | rejected _ => "flyt::types::checker"
  | called .. | aborted _ => "flyt::interpreter"

def message : Event → String
  | scanned tokens => s!"scanned tokens count={tokens}"
  | parsed statements => s!"parsed statements count={statements}"
  | checked statements => s!"type check passed count={statements}"
  | rejected reason => s!"type check failed error={reason.diagnostic.text}"
  | called name depth => s!"call name={name} depth={depth}"
  | aborted reason => s!"interpretation aborted error={reason.diagnostic.text}"

def fields : Event → List String
  | scanned _ | parsed _ | checked _ => ["message", "count"]
  | rejected _ | aborted _ => ["message", "error"]
  | called .. => ["message", "name", "depth"]

def text (event : Event) : String :=
  s!"{event.level.name} {event.target}: {event.message}"

end Event

end Scriptlet
