import Scriptlet.Span
import Scriptlet.Ty
import Scriptlet.Double.Whole

/-! Programs as trees. Every expression, binding and function has a slot for its type, which
is empty until the program has been checked. -/

namespace Scriptlet

inductive TypeExpr where
  | named (name : String) (span : Span)
  | function (params : List TypeExpr) (result : Option TypeExpr) (span : Span)

namespace TypeExpr

def span : TypeExpr → Span
  | .named _ span | .function _ _ span => span

mutual

/-- The type that is meant; a function type without a result returns none. -/
def ty : TypeExpr → Ty
  | .named name _ => .ofName name
  | .function params (some result) _ => .function (tys params) result.ty
  | .function params none _ => .function (tys params) .nothing

def tys : List TypeExpr → List Ty
  | [] => []
  | declared :: rest => declared.ty :: tys rest

end

theorem tys_eq_map (written : List TypeExpr) : tys written = written.map ty := by
  induction written with
  | nil => rfl
  | cons declared rest ih => simp [tys, ih]

end TypeExpr

inductive BinaryOp where
  | add
  | subtract
  | multiply
  | divide
  | floorDivide
  | equal
  | notEqual
  | less
  | lessEqual
  | greater
  | greaterEqual
deriving DecidableEq, Repr

namespace BinaryOp

def symbol : BinaryOp → String
  | add => "+"
  | subtract => "-"
  | multiply => "*"
  | divide => "/"
  | floorDivide => "//"
  | equal => "=="
  | notEqual => "!="
  | less => "<"
  | lessEqual => "<="
  | greater => ">"
  | greaterEqual => ">="

def name : BinaryOp → String
  | add => "Add"
  | subtract => "Subtract"
  | multiply => "Multiply"
  | divide => "Divide"
  | floorDivide => "FloorDivide"
  | equal => "Equal"
  | notEqual => "NotEqual"
  | less => "Less"
  | lessEqual => "LessEqual"
  | greater => "Greater"
  | greaterEqual => "GreaterEqual"

end BinaryOp

inductive UnaryOp where
  | negate
  | not
deriving DecidableEq, Repr

namespace UnaryOp

def symbol : UnaryOp → String
  | negate => "-"
  | not => "!"

def name : UnaryOp → String
  | negate => "Negate"
  | not => "Not"

end UnaryOp

inductive Literal where
  | int (value : Int64)
  | float (value : Double)
  | text (value : String)
  | bool (value : Bool)
deriving DecidableEq

def int64? (n : Int) : Option Int64 :=
  if Int64.minValue.toInt ≤ n ∧ n ≤ Int64.maxValue.toInt then some (Int64.ofInt n) else none

/-- A number without a fractional part is an integer wherever it fits one. -/
def Literal.number (x : Double) : Literal :=
  if x.fract.beq (.zero false) && x.fitsInt64 then .int x.toInt64 else .float x

theorem Literal.number_cases (x : Double) :
    (∃ n, number x = .int n) ∨ number x = .float x := by
  unfold number
  split
  · exact .inl ⟨_, rfl⟩
  · exact .inr rfl

structure Param where
  name : String
  declared : Option TypeExpr
  span : Span

structure Mark where
  span : Span
  ty : Option Ty := none

mutual

inductive Expr where
  | literal (value : Literal) (mark : Mark)
  | variable (name : String) (mark : Mark)
  | assign (name : String) (value : Expr) (mark : Mark)
  | group (inner : Expr) (mark : Mark)
  | unary (op : UnaryOp) (operand : Expr) (mark : Mark)
  | binary (op : BinaryOp) (left right : Expr) (mark : Mark)
  | call (callee : Expr) (args : List Expr) (mark : Mark)
  | function (decl : FnDecl) (mark : Mark)

/-- A function without a name of its own is anonymous and gets a made-up one. -/
structure FnDecl where
  name : String
  anonymous : Bool
  params : List Param
  result : Option TypeExpr
  body : List Stmt
  mark : Mark

inductive Stmt where
  | expression (expr : Expr)
  | binding (name : String) (declared : Option TypeExpr) (init : Option Expr) (mark : Mark)
  | block (block : Block)
  | conditional (condition : Expr) (thenBlock : Block) (otherwise : Option Stmt) (span : Span)
  | loop (condition : Expr) (body : Block) (span : Span)
  | function (decl : FnDecl)
  | ret (value : Option Expr) (span : Span)

structure Block where
  statements : List Stmt
  span : Span

end

structure Program where
  statements : List Stmt

namespace Expr

def mark : Expr → Mark
  | .literal _ mark | .variable _ mark | .assign _ _ mark | .group _ mark | .unary _ _ mark
  | .binary _ _ _ mark | .call _ _ mark | .function _ mark => mark

def span (e : Expr) : Span := e.mark.span

end Expr

end Scriptlet
