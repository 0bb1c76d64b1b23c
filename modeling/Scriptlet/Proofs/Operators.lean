import Scriptlet.Value.Operate

/-! What operators can come to, whatever their operands are, and how little they see of
functions. -/

namespace Scriptlet

def RuntimeFault.isAboutName : RuntimeFault → Bool
  | .undefined _ | .undeclaredTarget _ => true
  | _ => false

theorem RuntimeFault.isAboutName_iff {fault : RuntimeFault} :
    fault.isAboutName ↔ ∃ name, fault = .undefined name ∨ fault = .undeclaredTarget name := by
  cases fault <;> simp [isAboutName]

/-- The result of an operator: no function, and no error about a name. -/
def Plain : Except RuntimeFault Value → Prop
  | .ok value => value.kind ≠ .function
  | .error fault => fault.isAboutName = false

theorem Value.ofInt_plain (n : Int) : Plain (Value.ofInt n) := by
  unfold ofInt
  cases int64? n with
  | some n => simp [Plain, kind]
  | none => rfl

namespace BinaryOp

theorem arithmetic_cases {property : Except RuntimeFault Value → Prop} (op : BinaryOp)
    {onInts : Int64 → Int64 → Except RuntimeFault Value}
    {onDoubles : Double → Double → Except RuntimeFault Value} (left right : Value)
    (hints : ∀ a b, property (onInts a b)) (hdoubles : ∀ x y, property (onDoubles x y))
    (hother : property (.error (op.operandFault left right))) :
    property (op.arithmetic onInts onDoubles left right) := by
  unfold arithmetic
  split
  · exact hints _ _
  · split
    · exact hdoubles _ _
    · exact hother

theorem floorDivideInts_plain (a b : Int64) : Plain (floorDivideInts a b) := by
  unfold floorDivideInts
  split
  · rfl
  · split
    · simp [Plain, Value.kind]
    · rfl

theorem floorDivideDoubles_plain (x y : Double) : Plain (floorDivideDoubles x y) := by
  unfold floorDivideDoubles
  split
  · rfl
  · dsimp only
    split
    · simp [Plain, Value.kind]
    · rfl

theorem equality_plain (op : BinaryOp) (wanted : Bool) (left right : Value) :
    Plain (op.equality wanted left right) := by
  unfold equality
  split
  · simp [Plain, Value.kind]
  · rfl

theorem apply_plain (op : BinaryOp) (left right : Value) : Plain (op.apply left right) := by
  have hfloat : ∀ x, Plain (.ok (.float x)) := fun x => by simp [Plain, Value.kind]
  have hbool : ∀ b, Plain (.ok (.bool b)) := fun b => by simp [Plain, Value.kind]
  have hother : ∀ op : BinaryOp, Plain (.error (op.operandFault left right)) := fun _ => rfl
  cases op with
  | add =>
      simp only [apply]
      split
      · simp [Plain, Value.kind]
      · exact arithmetic_cases _ _ _ (fun _ _ => Value.ofInt_plain _) (fun _ _ => hfloat _)
          (hother _)
  | subtract | multiply =>
      exact arithmetic_cases _ _ _ (fun _ _ => Value.ofInt_plain _) (fun _ _ => hfloat _) (hother _)
  | divide =>
      simp only [apply]
      refine arithmetic_cases _ _ _ (fun a b => ?_) (fun _ _ => hfloat _) (hother _)
      split
      · rfl
      · exact Value.ofInt_plain _
  | floorDivide =>
      exact arithmetic_cases _ _ _ floorDivideInts_plain floorDivideDoubles_plain (hother _)
  | equal | notEqual => exact equality_plain _ _ _ _
  | less | lessEqual | greater | greaterEqual =>
      simp only [apply, comparison]
      exact arithmetic_cases _ _ _ (fun _ _ => hbool _) (fun _ _ => hbool _) (hother _)

end BinaryOp

theorem UnaryOp.apply_plain (op : UnaryOp) (operand : Value) : Plain (op.apply operand) := by
  cases op with
  | negate =>
      cases operand with
      | int n => exact Value.ofInt_plain _
      | float x => simp [apply, Plain, Value.kind]
      | _ => rfl
  | not => simp [apply, Plain, Value.kind]

theorem Callable.same_congr {f f' g g' : Callable} (hf : f.same f') (hg : g.same g') :
    f.same g = f'.same g' := by
  cases f <;> cases f' <;> cases g <;> cases g' <;> simp_all [same]

/-- The same value, or functions of which nothing tells that they are not the same. -/
inductive Value.Resembles : Value → Value → Prop
  | plain {value : Value} (h : value.kind ≠ .function) : Resembles value value
  | function {callable callable' : Callable} (h : callable.same callable') :
      Resembles (.function callable) (.function callable')

section Resembling

variable {value value' left left' right right' : Value}

theorem Value.Resembles.kind_eq (h : value.Resembles value') : value.kind = value'.kind := by
  cases h <;> rfl

theorem Value.Resembles.isTruthy_eq (h : value.Resembles value') :
    value.isTruthy = value'.isTruthy := by
  cases h <;> rfl

theorem Value.Resembles.equals?_eq (hleft : left.Resembles left')
    (hright : right.Resembles right') : left.equals? right = left'.equals? right' := by
  cases hleft with
  | plain hkind =>
      cases hright with
      | plain => rfl
      | function =>
          cases left with
          | function => exact absurd rfl hkind
          | _ => rfl
  | function h =>
      cases hright with
      | plain hkind =>
          cases right with
          | function => exact absurd rfl hkind
          | _ => rfl
      | function h' => exact congrArg some (Callable.same_congr h h')

theorem BinaryOp.operandFault_resembles (op : BinaryOp) (hleft : left.Resembles left')
    (hright : right.Resembles right') :
    op.operandFault left right = op.operandFault left' right' := by
  rw [operandFault, operandFault, hleft.kind_eq, hright.kind_eq]

theorem BinaryOp.arithmetic_resembles (op : BinaryOp)
    (onInts : Int64 → Int64 → Except RuntimeFault Value)
    (onDoubles : Double → Double → Except RuntimeFault Value) (hleft : left.Resembles left')
    (hright : right.Resembles right') :
    op.arithmetic onInts onDoubles left right = op.arithmetic onInts onDoubles left' right' := by
  cases hleft with
  | plain =>
      cases hright with
      | plain => rfl
      | function => cases left <;> rfl
  | function =>
      cases hright with
      | plain => rfl
      | function => rfl

theorem BinaryOp.apply_resembles (op : BinaryOp) (hleft : left.Resembles left')
    (hright : right.Resembles right') : op.apply left right = op.apply left' right' := by
  have hequality : ∀ wanted, op.equality wanted left right = op.equality wanted left' right' := by
    intro wanted
    rw [equality, equality, hleft.equals?_eq hright, op.operandFault_resembles hleft hright]
  cases op with
  | add =>
      cases hleft with
      | plain =>
          cases hright with
          | plain => rfl
          | function => cases left <;> rfl
      | function h =>
          simp only [apply]
          exact arithmetic_resembles _ _ _ (.function h) hright
  | equal => exact hequality true
  | notEqual => exact hequality false
  | _ =>
      simp only [apply, comparison]
      exact arithmetic_resembles _ _ _ hleft hright

theorem UnaryOp.apply_resembles (op : UnaryOp) (h : value.Resembles value') :
    op.apply value = op.apply value' := by
  cases h with
  | plain => rfl
  | function h => cases op <;> rfl

end Resembling

end Scriptlet
