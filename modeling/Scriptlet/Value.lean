import Scriptlet.Builtin
import Scriptlet.Syntax
import Scriptlet.Decimal.Layout

/-! What expressions evaluate to. -/

namespace Scriptlet

abbrev ScopeId := Nat

/-- A function written in a script, with the scope in which its free names are found. Every
evaluation of a function makes a closure with an identity of its own. -/
structure Closure where
  identity : Nat
  name : String
  decl : FnDecl
  scope : ScopeId

inductive Callable where
  | builtin (builtin : Builtin)
  | closure (closure : Closure)

namespace Callable

def name : Callable → String
  | builtin b => b.name
  | closure c => c.name

def arity : Callable → Nat
  | builtin b => b.arity
  | closure c => c.decl.params.length

def text : Callable → String
  | builtin b => b.text
  | closure c => s!"<fn {c.name}>"

/-- Two closures are the same only if one evaluation made both. -/
def same : Callable → Callable → Bool
  | builtin a, builtin b => a = b
  | closure a, closure b => a.identity = b.identity
  | _, _ => false

end Callable

/-- The absence of a value is a value too. -/
inductive Value where
  | int (value : Int64)
  | float (value : Double)
  | text (value : String)
  | bool (value : Bool)
  | nothing
  | function (callable : Callable)

inductive ValueKind where
  | int
  | float
  | string
  | bool
  | nothing
  | function
deriving DecidableEq, Repr

def ValueKind.name : ValueKind → String
  | int => "int"
  | float => "float"
  | string => "string"
  | bool => "bool"
  | nothing => "none"
  | function => "function"

namespace Value

def kind : Value → ValueKind
  | .int _ => .int
  | .float _ => .float
  | .text _ => .string
  | .bool _ => .bool
  | .nothing => .nothing
  | .function _ => .function

def ofLiteral : Literal → Value
  | .int n => .int n
  | .float x => .float x
  | .text s => .text s
  | .bool b => .bool b

/-- Only `false` and the absence of a value count as false. -/
def isTruthy : Value → Bool
  | .nothing => false
  | .bool b => b
  | _ => true

def toDouble? : Value → Option Double
  | .int n => some (.ofInt n.toInt)
  | .float x => some x
  | _ => none

def toText : Value → String
  | .int n => toString n.toInt
  | .float x => x.valueText
  | .text s => s
  | .bool b => if b then "true" else "false"
  | .nothing => "none"
  | .function f => f.text

/-- Numbers are compared with numbers and other values with values of their kind; for all
other pairs equality is not defined. -/
def equals? : Value → Value → Option Bool
  | .int a, .int b => some (a = b)
  | .text a, .text b => some (a = b)
  | .bool a, .bool b => some (a = b)
  | .nothing, .nothing => some true
  | .function f, .function g => some (f.same g)
  | a, b => do return (← a.toDouble?).beq (← b.toDouble?)

end Value

end Scriptlet
