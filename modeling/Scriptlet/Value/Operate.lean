import Scriptlet.Diagnostic
import Scriptlet.Value

/-! The operators on values. Two integers make an exact integer or fail; in any other pair of
numbers the integer is first rounded to a double. -/

namespace Scriptlet

inductive RuntimeFault where
  | undefined (name : String)
  | undeclaredTarget (name : String)
  | overflow
  | divisionByZero
  | unaryOperand (op : UnaryOp) (kind : ValueKind)
  | binaryOperands (op : BinaryOp) (left right : ValueKind)
  | notCallable (kind : ValueKind)
  | arity (params args : Nat)
  | outputFull
deriving DecidableEq, Repr

namespace RuntimeFault

def message : RuntimeFault → String
  | undefined name => s!"undefined name '{name}'"
  | undeclaredTarget name => s!"cannot assign to undeclared name '{name}'"
  | overflow => "integer overflow"
  | divisionByZero => "division by zero"
  | unaryOperand op kind => s!"operator '{op.symbol}' cannot be applied to {kind.name}"
  | binaryOperands op left right =>
      s!"operator '{op.symbol}' cannot be applied to {left.name} and {right.name}"
  | notCallable kind => s!"can only call functions, not {kind.name}"
  | arity params args => s!"expected {params} arguments but got {args}"
  | outputFull => "failed to write output: no room left"

end RuntimeFault

structure RuntimeError where
  fault : RuntimeFault
  span : Span
deriving DecidableEq, Repr

def RuntimeError.diagnostic (e : RuntimeError) : Diagnostic :=
  ⟨.runtime, e.fault.message, e.span⟩

namespace Value

def ofInt (n : Int) : Except RuntimeFault Value :=
  match int64? n with
  | some n => .ok (.int n)
  | none => .error .overflow

end Value

namespace BinaryOp

def operandFault (op : BinaryOp) (left right : Value) : RuntimeFault :=
  .binaryOperands op left.kind right.kind

def arithmetic (op : BinaryOp) (onInts : Int64 → Int64 → Except RuntimeFault Value)
    (onDoubles : Double → Double → Except RuntimeFault Value) (left right : Value) :
    Except RuntimeFault Value :=
  match left, right with
  | .int a, .int b => onInts a b
  | _, _ =>
      match left.toDouble?, right.toDouble? with
      | some x, some y => onDoubles x y
      | _, _ => .error (op.operandFault left right)

/-- Whether a quotient of integers that is cut off toward zero lies above the exact one. -/
def isCutUpward (a b : Int64) : Bool := a % b != 0 && decide (a < 0) != decide (b < 0)

/-- The quotient of integers that is cut off toward zero, or the one below it. -/
def floorDivideInts (a b : Int64) : Except RuntimeFault Value :=
  if b = 0 then .error .divisionByZero
  else
    match int64? (a.toInt.tdiv b.toInt) with
    | some quotient => .ok (.int (if isCutUpward a b then quotient - 1 else quotient))
    | none => .error .overflow

def floorDivideDoubles (x y : Double) : Except RuntimeFault Value :=
  if y.beq (.zero false) then .error .divisionByZero
  else
    let quotient := (x.div y).floor
    if quotient.isFinite && quotient.fitsInt64 then .ok (.int quotient.toInt64)
    else .error .overflow

def equality (op : BinaryOp) (wanted : Bool) (left right : Value) :
    Except RuntimeFault Value :=
  match left.equals? right with
  | some same => .ok (.bool (same == wanted))
  | none => .error (op.operandFault left right)

def comparison (op : BinaryOp) (onInts : Int → Int → Bool) (onDoubles : Double → Double → Bool) :
    Value → Value → Except RuntimeFault Value :=
  op.arithmetic (fun a b => .ok (.bool (onInts a.toInt b.toInt)))
    (fun x y => .ok (.bool (onDoubles x y)))

def apply (op : BinaryOp) (left right : Value) : Except RuntimeFault Value :=
  match op with
  | add =>
      match left, right with
      | .text a, .text b => .ok (.text (a ++ b))
      | _, _ =>
          op.arithmetic (fun a b => Value.ofInt (a.toInt + b.toInt))
            (fun x y => .ok (.float (x.add y))) left right
  | subtract =>
      op.arithmetic (fun a b => Value.ofInt (a.toInt - b.toInt))
        (fun x y => .ok (.float (x.sub y))) left right
  | multiply =>
      op.arithmetic (fun a b => Value.ofInt (a.toInt * b.toInt))
        (fun x y => .ok (.float (x.mul y))) left right
  | divide =>
      op.arithmetic
        (fun a b =>
          if b = 0 then .error .divisionByZero else Value.ofInt (a.toInt.tdiv b.toInt))
        (fun x y => .ok (.float (x.div y))) left right
  | floorDivide => op.arithmetic floorDivideInts floorDivideDoubles left right
  | equal => op.equality true left right
  | notEqual => op.equality false left right
  | less => op.comparison (fun a b => decide (a < b)) Double.lt left right
  | lessEqual => op.comparison (fun a b => decide (a ≤ b)) Double.le left right
  | greater => op.comparison (fun a b => decide (b < a)) (fun x y => y.lt x) left right
  | greaterEqual => op.comparison (fun a b => decide (b ≤ a)) (fun x y => y.le x) left right

end BinaryOp

namespace UnaryOp

def apply (op : UnaryOp) (operand : Value) : Except RuntimeFault Value :=
  match op, operand with
  | negate, .int n => Value.ofInt (-n.toInt)
  | negate, .float x => .ok (.float x.neg)
  | negate, other => .error (.unaryOperand negate other.kind)
  | not, other => .ok (.bool !other.isTruthy)

end UnaryOp

end Scriptlet
