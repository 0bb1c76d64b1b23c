import Scriptlet.Eval
import Scriptlet.Proofs.Doubles.Whole

/-! Integers that come of arithmetic. An operator on integers comes to the exact result or fails,
and no step on the way leaves the integers of 64 bits. A double that becomes an integer, in a
literal or where it is rounded down, equals it. -/

namespace Scriptlet

/-- Whether an evaluation ends with this error at this place. -/
def Run.FailsWith (message : String) (span : Span) (machine : Machine)
    (ending : EStateM.Result Stop Machine Value) : Prop :=
  ∃ fault : RuntimeFault,
    ending = .error (.fault ⟨fault, span⟩) machine ∧ fault.message = message

/-- Whether an evaluation ends with the integer `n`, or says that 64 bits are too few for it. -/
def Run.EndsExactly (n : Int) (span : Span) (machine : Machine)
    (ending : EStateM.Result Stop Machine Value) : Prop :=
  if -9223372036854775808 ≤ n ∧ n ≤ 9223372036854775807 then
    ∃ i : Int64, i.toInt = n ∧ ending = .ok (.int i) machine
  else FailsWith "integer overflow" span machine ending

section Quotients

variable {a b : Int}

theorem fdiv_eq_ite_tdiv (hb : b ≠ 0) :
    a.fdiv b = if a.tmod b ≠ 0 ∧ ¬(a < 0 ↔ b < 0) then a.tdiv b - 1 else a.tdiv b := by
  simp only [Int.fdiv_eq_tdiv, Int.dvd_iff_tmod_eq_zero]
  rcases Int.lt_or_gt_of_ne hb with hneg | hpos
  · rw [Int.sign_eq_neg_one_of_neg hneg]
    split_ifs <;> omega
  · rw [Int.sign_eq_one_of_pos hpos]
    split_ifs <;> omega

theorem natAbs_tdiv_le_half (hb : b ≠ 0) (hrest : a.tmod b ≠ 0) :
    (a.tdiv b).natAbs ≤ a.natAbs / 2 := by
  have htwo : 2 ≤ b.natAbs := by
    by_contra hsmall
    have hone : b.natAbs = 1 := by omega
    have hnone : (a.tmod b).natAbs = 0 := by rw [Int.natAbs_tmod, hone, Nat.mod_one]
    exact hrest (Int.natAbs_eq_zero.mp hnone)
  rw [Int.natAbs_tdiv]
  exact Nat.div_le_div_left htwo (by decide)

theorem fdiv_rest (a : Int) (hb : b ≠ 0) :
    ∃ r, a = a.fdiv b * b + r ∧ (r = 0 ∨ r.sign = b.sign) ∧ r.natAbs < b.natAbs := by
  refine ⟨a.fmod b, (Int.fdiv_mul_add_fmod a b).symm, ?_⟩
  rcases Int.lt_or_gt_of_ne hb with hneg | hpos
  · have hmirror := Int.neg_fmod_neg a b
    have hnonneg := Int.fmod_nonneg_of_pos (-a) (Int.neg_pos_of_neg hneg)
    have hlt := Int.fmod_lt_of_pos (-a) (Int.neg_pos_of_neg hneg)
    refine ⟨?_, by omega⟩
    rcases Int.lt_or_eq_of_le hnonneg with hrest | hnone
    · exact .inr (by rw [Int.sign_eq_neg_one_of_neg hneg, Int.sign_eq_neg_one_of_neg (by omega)])
    · exact .inl (by omega)
  · have hnonneg := Int.fmod_nonneg_of_pos a hpos
    have hlt := Int.fmod_lt_of_pos a hpos
    refine ⟨?_, by omega⟩
    rcases Int.lt_or_eq_of_le hnonneg with hrest | hnone
    · exact .inr (by rw [Int.sign_eq_one_of_pos hpos, Int.sign_eq_one_of_pos hrest])
    · exact .inl hnone.symm

end Quotients

theorem int64?_eq_some_iff {n : Int} {i : Int64} : int64? n = some i ↔ i.toInt = n := by
  have hleast : Int64.minValue.toInt = -9223372036854775808 := by decide
  have hgreatest : Int64.maxValue.toInt = 9223372036854775807 := by decide
  unfold int64?
  split
  · rename_i h
    rw [Option.some.injEq, ← Int64.toInt_inj, Int64.toInt_ofInt_of_le (by omega) (by omega)]
    exact eq_comm
  · rename_i h
    have := i.le_toInt
    have := i.toInt_lt
    simp only [reduceCtorEq, false_iff]
    omega

namespace BinaryOp

/-- What has to hold where a quotient is rounded down: there is a remainder, it is the exact one,
and what is taken off the quotient does not go below the least integer. -/
structure StepsFit (a b quotient : Int64) : Prop where
  nonzero : b ≠ 0
  divides : ¬(a = Int64.minValue ∧ b = -1)
  remainder : (a % b).toInt = a.toInt.tmod b.toInt
  adjusted : isCutUpward a b → (quotient - 1).toInt = quotient.toInt - 1

variable {a b quotient : Int64}

theorem toInt_ne_zero (hb : b ≠ 0) : b.toInt ≠ 0 := fun h => hb (Int64.toInt_inj.mp h)

theorem isCutUpward_iff :
    isCutUpward a b ↔ a.toInt.tmod b.toInt ≠ 0 ∧ ¬(a.toInt < 0 ↔ b.toInt < 0) := by
  have hrest : a % b = 0 ↔ a.toInt.tmod b.toInt = 0 := by
    rw [← Int64.toInt_inj, Int64.toInt_mod, Int64.toInt_zero]
  simp [isCutUpward, Int64.lt_iff_toInt_lt, hrest]

theorem stepsFit (hb : b ≠ 0) (hquotient : quotient.toInt = a.toInt.tdiv b.toInt) :
    StepsFit a b quotient where
  nonzero := hb
  divides := by
    rintro ⟨rfl, rfl⟩
    exact absurd (hquotient.symm ▸ quotient.toInt_lt) (by decide)
  remainder := Int64.toInt_mod a b
  adjusted := fun hcut => by
    have hhalf := natAbs_tdiv_le_half (toInt_ne_zero hb) (isCutUpward_iff.mp hcut).1
    have := a.le_toInt
    have := a.toInt_lt
    rw [Int64.toInt_sub]
    exact Int.bmod_eq_of_le (by simp; omega) (by simp; omega)

theorem floorDivideInts_eq (hb : b ≠ 0) :
    floorDivideInts a b = Value.ofInt (a.toInt.fdiv b.toInt) := by
  have hne := toInt_ne_zero hb
  have hfdiv : a.toInt.fdiv b.toInt =
      if isCutUpward a b then a.toInt.tdiv b.toInt - 1 else a.toInt.tdiv b.toInt := by
    simp only [fdiv_eq_ite_tdiv hne, isCutUpward_iff]
  rw [floorDivideInts, if_neg hb, Value.ofInt]
  cases hquotient : int64? (a.toInt.tdiv b.toInt) with
  | some quotient =>
      rw [int64?_eq_some_iff] at hquotient
      have hdown : int64? (a.toInt.fdiv b.toInt) =
          some (if isCutUpward a b then quotient - 1 else quotient) := by
        rw [int64?_eq_some_iff, hfdiv]
        split
        · rename_i hcut
          rw [(stepsFit hb hquotient).adjusted hcut, hquotient]
        · exact hquotient
      rw [hdown]
  | none =>
      -- a quotient this large leaves no rest, and is not rounded down
      have hrest : a.toInt.tmod b.toInt = 0 := by
        by_contra hrest
        have hhalf := natAbs_tdiv_le_half hne hrest
        have := a.le_toInt
        have := a.toInt_lt
        have hfits : int64? (a.toInt.tdiv b.toInt) = some (.ofInt (a.toInt.tdiv b.toInt)) := by
          rw [int64?_eq_some_iff, Int64.toInt_ofInt_of_le (by omega) (by omega)]
        simp [hfits] at hquotient
      have hexact : ¬isCutUpward a b := fun hcut => (isCutUpward_iff.mp hcut).1 hrest
      rw [hfdiv, if_neg hexact, hquotient]

end BinaryOp

namespace Run

section Operators

variable {fuel : Nat} {scope : ScopeId} {left right : Expr} {machine middle after : Machine}
  {x y : Value}

theorem evaluate_binary_of_ok (hleft : evaluate fuel scope left machine = .ok x middle)
    (hright : evaluate fuel scope right middle = .ok y after) (op : BinaryOp) (mark : Mark) :
    evaluate (fuel + 1) scope (.binary op left right mark) machine =
      ofExcept mark.span (op.apply x y) after := by
  simp only [evaluate, bind, EStateM.bind, hleft, hright]

theorem evaluate_unary_of_ok (hleft : evaluate fuel scope left machine = .ok x middle)
    (op : UnaryOp) (mark : Mark) :
    evaluate (fuel + 1) scope (.unary op left mark) machine =
      ofExcept mark.span (op.apply x) middle := by
  simp only [evaluate, bind, EStateM.bind, hleft]

theorem endsExactly_ofInt (n : Int) (span : Span) (machine : Machine) :
    EndsExactly n span machine (ofExcept span (Value.ofInt n) machine) := by
  unfold EndsExactly Value.ofInt
  split
  · rename_i hfits
    refine ⟨.ofInt n, Int64.toInt_ofInt_of_le (by omega) (by omega), ?_⟩
    have hsome : int64? n = some (.ofInt n) := by
      rw [int64?_eq_some_iff, Int64.toInt_ofInt_of_le (by omega) (by omega)]
    rw [hsome]
    rfl
  · rename_i hfar
    cases hsome : int64? n with
    | some i =>
        have := i.le_toInt
        have := i.toInt_lt
        have := int64?_eq_some_iff.mp hsome
        omega
    | none => exact ⟨.overflow, rfl, rfl⟩

/-- The operators on two integers, whatever expressions they are the values of. -/
theorem evaluate_integers {a b : Int64} (mark : Mark)
    (hleft : evaluate fuel scope left machine = .ok (.int a) middle)
    (hright : evaluate fuel scope right middle = .ok (.int b) after) :
    let ending := fun op => evaluate (fuel + 1) scope (.binary op left right mark) machine
    EndsExactly (a.toInt + b.toInt) mark.span after (ending .add) ∧
    EndsExactly (a.toInt - b.toInt) mark.span after (ending .subtract) ∧
    EndsExactly (a.toInt * b.toInt) mark.span after (ending .multiply) ∧
    EndsExactly (-a.toInt) mark.span middle
      (evaluate (fuel + 1) scope (.unary .negate left mark) machine) ∧
    (if b = 0 then
      FailsWith "division by zero" mark.span after (ending .divide) ∧
      FailsWith "division by zero" mark.span after (ending .floorDivide)
    else
      EndsExactly (a.toInt.tdiv b.toInt) mark.span after (ending .divide) ∧
      EndsExactly (a.toInt.fdiv b.toInt) mark.span after (ending .floorDivide)) ∧
    (∀ quotient, b ≠ 0 → int64? (a.toInt.tdiv b.toInt) = some quotient →
      BinaryOp.StepsFit a b quotient) ∧
    ∀ quotient, ending .floorDivide = .ok (.int quotient) after →
      ∃ rest, a.toInt = quotient.toInt * b.toInt + rest ∧
        (rest = 0 ∨ rest.sign = b.toInt.sign) ∧ rest.natAbs < b.toInt.natAbs := by
  intro ending
  have hending : ∀ op, ending op = ofExcept mark.span (op.apply (.int a) (.int b)) after :=
    fun op => evaluate_binary_of_ok hleft hright op mark
  have hdown : b ≠ 0 → ending .floorDivide =
      ofExcept mark.span (Value.ofInt (a.toInt.fdiv b.toInt)) after := fun hb => by
    rw [hending, ← BinaryOp.floorDivideInts_eq hb]
    rfl
  refine ⟨?add, ?subtract, ?multiply, ?negate, ?divisions, ?steps, ?rest⟩
  case add => exact hending .add ▸ endsExactly_ofInt _ _ _
  case subtract => exact hending .subtract ▸ endsExactly_ofInt _ _ _
  case multiply => exact hending .multiply ▸ endsExactly_ofInt _ _ _
  case negate => exact evaluate_unary_of_ok hleft .negate mark ▸ endsExactly_ofInt _ _ _
  case divisions =>
    split
    · rename_i hb
      subst hb
      exact ⟨⟨.divisionByZero, hending .divide, rfl⟩, ⟨.divisionByZero, hending .floorDivide, rfl⟩⟩
    · rename_i hb
      have hdivide : BinaryOp.divide.apply (.int a) (.int b) =
          Value.ofInt (a.toInt.tdiv b.toInt) := if_neg hb
      rw [hending .divide, hdivide, hdown hb]
      exact ⟨endsExactly_ofInt _ _ _, endsExactly_ofInt _ _ _⟩
  case steps =>
    exact fun quotient hb hquotient => BinaryOp.stepsFit hb (int64?_eq_some_iff.mp hquotient)
  case rest =>
    intro quotient hquotient
    have hb : b ≠ 0 := by
      rintro rfl
      rw [hending] at hquotient
      cases hquotient
    obtain ⟨rest, hexact, hsign, hsmall⟩ := fdiv_rest a.toInt (BinaryOp.toInt_ne_zero hb)
    have hvalue : quotient.toInt = a.toInt.fdiv b.toInt := by
      rw [hdown hb, Value.ofInt] at hquotient
      cases hfits : int64? (a.toInt.fdiv b.toInt) with
      | some exact =>
          rw [hfits] at hquotient
          obtain rfl : exact = quotient := by cases hquotient; rfl
          exact int64?_eq_some_iff.mp hfits
      | none =>
          rw [hfits] at hquotient
          cases hquotient
    exact ⟨rest, hvalue ▸ hexact, hsign, hsmall⟩

/-- The least integer by three: what the quotient is rounded down to is no multiple. -/
theorem evaluate_least_by_three :
    let machine := Machine.new .unbounded fun _ => 0
    let mark : Mark := { span := ⟨0, 10, 1⟩ }
    let least : Expr := .literal (.int .minValue) mark
    let three : Expr := .literal (.int 3) mark
    evaluate 1 Machine.globals least machine = .ok (.int .minValue) machine ∧
    evaluate 1 Machine.globals three machine = .ok (.int 3) machine ∧
    EndsExactly (-3074457345618258603) mark.span machine
      (evaluate 2 Machine.globals (.binary .floorDivide least three mark) machine) := by
  intro machine mark least three
  have hleft : evaluate 1 Machine.globals least machine = .ok (.int .minValue) machine := by
    simp only [least, evaluate, Value.ofLiteral]
    rfl
  have hright : evaluate 1 Machine.globals three machine = .ok (.int 3) machine := by
    simp only [three, evaluate, Value.ofLiteral]
    rfl
  obtain ⟨-, -, -, -, hdivisions, -, -⟩ := evaluate_integers mark hleft hright
  rw [if_neg (by decide)] at hdivisions
  have hquotient : Int64.minValue.toInt.fdiv (Int64.toInt 3) = -3074457345618258603 := by decide
  exact ⟨hleft, hright, hquotient ▸ hdivisions.2⟩

end Operators

end Run

namespace Double

def Equals (x : Double) (n : Int64) : Prop := x.units? = some (n.toInt * unitsPerOne)

def IsWhole (x : Double) : Prop := ∃ u, x.units? = some u ∧ (unitsPerOne : Int) ∣ u

/-- A finite number that is not below the least integer, and below the one after the greatest. -/
def IsInRange (x : Double) : Prop :=
  ∃ u, x.units? = some u ∧ -9223372036854775808 * (unitsPerOne : Int) ≤ u ∧
    u < 9223372036854775808 * unitsPerOne

/-- The greatest whole number that is not above `x`; nothing finite if `x` is not finite. -/
def IsFloorOf (q x : Double) : Prop :=
  match x.units? with
  | some u => ∃ whole : Int, q.units? = some (whole * unitsPerOne) ∧
      whole * unitsPerOne ≤ u ∧ u < (whole + 1) * unitsPerOne
  | none => q.units? = none

variable {x : Double} {n : Int64}

theorem isInRange_iff : x.IsInRange ↔ x.isFinite ∧ x.fitsInt64 := by
  rw [isFinite_iff_units?]
  constructor
  · rintro ⟨u, hu, hrange⟩
    exact ⟨⟨u, hu⟩, (fitsInt64_iff hu).mpr hrange⟩
  · rintro ⟨⟨u, hu⟩, hfits⟩
    exact ⟨u, hu, (fitsInt64_iff hu).mp hfits⟩

theorem equals_toInt64 (hwhole : x.IsWhole) (hrange : x.IsInRange) : x.Equals x.toInt64 :=
  toInt64_eq_iff.mpr ⟨hwhole, (isInRange_iff.mp hrange).2, rfl⟩

theorem equals_iff : x.Equals n ↔ x.IsWhole ∧ x.IsInRange ∧ x.toInt64 = n := by
  rw [Equals, toInt64_eq_iff, isInRange_iff, IsWhole, isFinite_iff_units?]
  constructor
  · rintro ⟨⟨u, hu, hdvd⟩, hfits, hn⟩
    exact ⟨⟨u, hu, hdvd⟩, ⟨⟨u, hu⟩, hfits⟩, hn⟩
  · rintro ⟨hwhole, ⟨-, hfits⟩, hn⟩
    exact ⟨hwhole, hfits, hn⟩

theorem isFloorOf_floor (x : Double) : x.floor.IsFloorOf x := by
  unfold IsFloorOf
  cases hx : x.units? with
  | some u =>
      have hpos := unitsPerOne_pos_int
      refine ⟨u.fdiv unitsPerOne, units?_floor hx, ?_⟩
      rw [Int.fdiv_eq_ediv_of_nonneg u hpos.le]
      exact ⟨Int.ediv_mul_le u (Int.ne_of_gt hpos), Int.lt_ediv_add_one_mul_self u hpos⟩
  | none =>
      have hfinite : ¬x.floor.isFinite := by
        rw [isFinite_floor, isFinite_iff_units?, hx]
        simp
      rw [isFinite_iff_units?, not_exists] at hfinite
      exact Option.eq_none_iff_forall_not_mem.mpr hfinite

theorem beq_zero_iff : x.beq (zero false) ↔ x.units? = some 0 := by
  have hlimit : limit ≠ 0 :=
    Nat.ne_of_gt (Nat.lt_of_le_of_lt (Nat.zero_le _) representable_zero.2)
  cases x with
  | nan => simp [beq, compareBy, signedUnits?, units?]
  | infinite negative =>
      cases negative <;> simp [beq, compareBy, signedUnits?, units?, zero, hlimit]
  | finite negative units hunits =>
      rw [beq, compareBy_of_units? _ rfl (units?_zero false), beq_iff_eq, units?, Option.some.injEq]

theorem isWhole_floor (hrange : x.floor.IsInRange) : x.floor.IsWhole := by
  obtain ⟨u, hu, -⟩ := hrange
  have hfloor := isFloorOf_floor x
  unfold IsFloorOf at hfloor
  split at hfloor
  · obtain ⟨whole, hwhole, -⟩ := hfloor
    exact ⟨_, hwhole, Int.dvd_mul_left _ _⟩
  · rw [hu] at hfloor
    cases hfloor

end Double

namespace BinaryOp

variable {left right : Value} {y z : Double}

theorem arithmetic_doubles (op : BinaryOp) (hleft : left.toDouble? = some y)
    (hright : right.toDouble? = some z) (hmixed : ¬(left.kind = .int ∧ right.kind = .int))
    (onInts : Int64 → Int64 → Except RuntimeFault Value)
    (onDoubles : Double → Double → Except RuntimeFault Value) :
    op.arithmetic onInts onDoubles left right = onDoubles y z := by
  unfold arithmetic
  split
  · exact absurd ⟨rfl, rfl⟩ hmixed
  · rw [hleft, hright]

theorem floorDivideDoubles_eq (hnonzero : z.units? ≠ some 0) :
    floorDivideDoubles y z =
      if (y.div z).floor.isFinite && (y.div z).floor.fitsInt64 then
        .ok (.int (y.div z).floor.toInt64)
      else .error .overflow := by
  rw [floorDivideDoubles, if_neg fun hbeq => hnonzero (Double.beq_zero_iff.mp hbeq)]

end BinaryOp

/-- A double equals the integer that it becomes, in a literal as well as where a quotient is rounded
down, and the conversion is asked for no number that is out of its range. -/
theorem doubles_become_equal_integers (x : Double) {fuel : Nat} {scope : ScopeId}
    {left right : Expr} {machine middle after : Machine} {a b : Value} {y z : Double} (mark : Mark)
    (hleft : Run.evaluate fuel scope left machine = .ok a middle)
    (hright : Run.evaluate fuel scope right middle = .ok b after)
    (hy : a.toDouble? = some y) (hz : b.toDouble? = some z)
    (hmixed : ¬(a.kind = .int ∧ b.kind = .int)) (hnonzero : z.units? ≠ some 0) :
    let literal := Literal.number x
    let q := (y.div z).floor
    let ending :=
      Run.evaluate (fuel + 1) scope (.binary .floorDivide left right mark) machine
    ((∃ n, literal = .int n) ↔ x.IsWhole ∧ x.IsInRange) ∧
    (∀ n, literal = .int n → x.Equals n) ∧
    ((∀ n, literal ≠ .int n) → literal = .float x) ∧
    (x.IsWhole → x.IsInRange → x.Equals x.toInt64) ∧
    q.IsFloorOf (y.div z) ∧
    ((∃ n, ending = .ok (.int n) after) ↔ q.IsInRange) ∧
    (∀ n, ending = .ok (.int n) after → q.Equals n) ∧
    (¬q.IsInRange → Run.FailsWith "integer overflow" mark.span after ending) ∧
    (q.IsInRange → q.Equals q.toInt64) := by
  intro literal q ending
  have hliteral : ∀ n, literal = .int n ↔ x.IsWhole ∧ x.IsInRange ∧ x.toInt64 = n := fun n =>
    Literal.number_eq_int_iff.trans Double.equals_iff
  have hending : ending = Run.ofExcept mark.span
      (if q.isFinite && q.fitsInt64 then .ok (.int q.toInt64) else .error .overflow) after := by
    refine (Run.evaluate_binary_of_ok hleft hright .floorDivide mark).trans ?_
    rw [← BinaryOp.floorDivideDoubles_eq hnonzero, BinaryOp.apply,
      BinaryOp.arithmetic_doubles .floorDivide hy hz hmixed]
  have hguard : (q.isFinite && q.fitsInt64) = true ↔ q.IsInRange := by
    rw [Bool.and_eq_true, Double.isInRange_iff]
  have hfits : q.IsInRange → ending = .ok (.int q.toInt64) after := fun hrange => by
    rw [hending, if_pos (hguard.mpr hrange)]
    rfl
  have hfails : ¬q.IsInRange → Run.FailsWith "integer overflow" mark.span after ending :=
    fun hrange => by
      rw [hending, if_neg (mt hguard.mp hrange)]
      exact ⟨.overflow, rfl, rfl⟩
  have hinRange : ∀ n, ending = .ok (.int n) after → q.IsInRange := fun n hn => by
    by_contra hrange
    obtain ⟨_, hfault, -⟩ := hfails hrange
    rw [hn] at hfault
    cases hfault
  have hcast : q.IsInRange → q.Equals q.toInt64 := fun hrange =>
    Double.equals_toInt64 (Double.isWhole_floor hrange) hrange
  refine ⟨⟨?literal, ?isInt⟩, ?equals, ?float, Double.equals_toInt64, Double.isFloorOf_floor _,
    ⟨?quotient, ?inRange⟩, ?exact, hfails, hcast⟩
  case literal =>
    rintro ⟨n, hn⟩
    obtain ⟨hwhole, hrange, -⟩ := (hliteral n).mp hn
    exact ⟨hwhole, hrange⟩
  case isInt => exact fun ⟨hwhole, hrange⟩ => ⟨_, (hliteral _).mpr ⟨hwhole, hrange, rfl⟩⟩
  case equals => exact fun n hn => Double.equals_iff.mpr ((hliteral n).mp hn)
  case float => exact (Literal.number_cases x).resolve_left ∘ not_exists.mpr
  case quotient => exact fun ⟨n, hn⟩ => hinRange n hn
  case inRange => exact fun hrange => ⟨_, hfits hrange⟩
  case exact =>
    intro n hn
    have hrange := hinRange n hn
    obtain rfl : q.toInt64 = n := by
      rw [hfits hrange] at hn
      cases hn
      rfl
    exact hcast hrange

/-- The greatest integer by the double one: as a double it is too large by one. A zero loses its
sign. -/
theorem greatest_by_one_overflows :
    let machine := Machine.new .unbounded fun _ => 0
    let mark : Mark := { span := ⟨0, 10, 1⟩ }
    let greatest : Expr := .literal (.int .maxValue) mark
    let one : Expr := .literal (.float (.ofInt 1)) mark
    Run.evaluate 1 Machine.globals greatest machine = .ok (.int .maxValue) machine ∧
    Run.evaluate 1 Machine.globals one machine = .ok (.float (.ofInt 1)) machine ∧
    (∃ n, Literal.number (.zero true) = .int n ∧ (Double.zero true).Equals n) ∧
    Run.FailsWith "integer overflow" mark.span machine
      (Run.evaluate 2 Machine.globals (.binary .floorDivide greatest one mark) machine) := by
  intro machine mark greatest one
  have hleft : Run.evaluate 1 Machine.globals greatest machine = .ok (.int .maxValue) machine := by
    simp only [greatest, Run.evaluate, Value.ofLiteral]
    rfl
  have hright : Run.evaluate 1 Machine.globals one machine = .ok (.float (.ofInt 1)) machine := by
    simp only [one, Run.evaluate, Value.ofLiteral]
    rfl
  have hzero : (Double.zero true).IsWhole ∧ (Double.zero true).IsInRange := by
    have hpos := Double.unitsPerOne_pos_int
    exact ⟨⟨0, rfl, Int.dvd_zero _⟩, ⟨0, rfl, by omega, by omega⟩⟩
  obtain ⟨hint, hequals, -, -, -, -, -, hfails, -⟩ :=
    doubles_become_equal_integers (.zero true) mark hleft hright rfl rfl (by simp [Value.kind])
      (by decide +kernel)
  obtain ⟨n, hn⟩ := hint.mpr hzero
  refine ⟨hleft, hright, ⟨n, hn, hequals n hn⟩, hfails fun hrange => ?_⟩
  exact absurd (Double.isInRange_iff.mp hrange).2 (by decide +kernel)

end Scriptlet
