import Scriptlet.Proofs.Arithmetic

/-! The order of numbers. Two integers are compared exactly, any other two numbers as doubles.
Rounding keeps the order, so the two ways of comparing agree but for different integers that are
the same double. -/

namespace Scriptlet

namespace Value

/-- An integer or a double, but not `nan`. -/
def IsNumber (a : Value) : Prop := ∃ x, a.toDouble? = some x ∧ x ≠ .nan

/-- The units that a number has as a double; an infinity is as good as a number here. -/
def widened? (a : Value) : Option Int := a.toDouble?.bind Double.signedUnits?

/-- The two exact numbers that a comparison of two values goes by. -/
inductive Compares : Value → Value → Int → Int → Prop
  | ints (i j : Int64) : Compares (.int i) (.int j) i.toInt j.toInt
  | doubles {a b : Value} {x y : Int} (hmixed : ¬(a.kind = .int ∧ b.kind = .int))
      (hx : a.widened? = some x) (hy : b.widened? = some y) : Compares a b x y

variable {a b c : Value} {u v x y : Int}

theorem IsNumber.widened (h : a.IsNumber) : ∃ u, a.widened? = some u := by
  obtain ⟨x, hx, hnan⟩ := h
  cases x with
  | nan => exact absurd rfl hnan
  | _ => exact ⟨_, by rw [widened?, hx]; rfl⟩

theorem isNumber_of_widened (h : a.widened? = some u) : a.IsNumber := by
  obtain ⟨x, hx, hunits⟩ := Option.bind_eq_some_iff.mp h
  exact ⟨x, hx, fun hnan => by simp [hnan, Double.signedUnits?] at hunits⟩

theorem widened?_ofInt {n : Int} (h : n.natAbs ≤ 9223372036854775808) :
    (Value.float (.ofInt n)).widened? = some (Double.roundInt n * Double.unitsPerOne) := by
  rw [widened?, toDouble?, Option.bind_some]
  exact Double.signedUnits?_of_units? (Double.units?_ofInt h)

theorem widened?_int (n : Int64) :
    (Value.int n).widened? = some (Double.roundInt n.toInt * Double.unitsPerOne) := by
  have := n.le_toInt
  have := n.toInt_lt
  have hsame : (Value.int n).widened? = (Value.float (.ofInt n.toInt)).widened? := by
    rw [widened?, widened?, toDouble?, toDouble?]
  rw [hsame, widened?_ofInt (by omega)]

theorem compares (hu : a.widened? = some u) (hv : b.widened? = some v) :
    ∃ x y, Compares a b x y := by
  by_cases hkinds : a.kind = .int ∧ b.kind = .int
  · cases a with
    | int i =>
        cases b with
        | int j => exact ⟨_, _, .ints i j⟩
        | _ => cases hkinds.2
    | _ => cases hkinds.1
  · exact ⟨u, v, .doubles hkinds hu hv⟩

def exact : Value → Int
  | .int i => i.toInt
  | _ => 0

theorem Compares.lt_iff (h : Compares a b x y) (hu : a.widened? = some u)
    (hv : b.widened? = some v) : x < y ↔
      u < v ∨ (u = v ∧ a.kind = .int ∧ b.kind = .int ∧ a.exact < b.exact) := by
  cases h with
  | ints i j =>
      rw [widened?_int] at hu hv
      cases hu
      cases hv
      have hpos := Double.unitsPerOne_pos_int
      have hup : i.toInt ≤ j.toInt → _ := fun hle =>
        Int.mul_le_mul_of_nonneg_right (Double.roundInt_mono hle) hpos.le
      have hdown : j.toInt ≤ i.toInt → _ := fun hle =>
        Int.mul_le_mul_of_nonneg_right (Double.roundInt_mono hle) hpos.le
      simp only [kind, exact, true_and]
      omega
  | doubles hmixed hx hy =>
      cases hu.symm.trans hx
      cases hv.symm.trans hy
      refine ⟨.inl, fun hless => hless.resolve_right ?_⟩
      rintro ⟨-, hleft, hright, -⟩
      exact hmixed ⟨hleft, hright⟩

theorem Compares.eq_iff (h : Compares a b x y) (hu : a.widened? = some u)
    (hv : b.widened? = some v) :
    x = y ↔ u = v ∧ (a.kind = .int → b.kind = .int → a.exact = b.exact) := by
  cases h with
  | ints i j =>
      rw [widened?_int] at hu hv
      cases hu
      cases hv
      simp only [kind, exact, true_imp_iff]
      exact ⟨fun h => ⟨by rw [h], h⟩, fun h => h.2⟩
  | doubles hmixed hx hy =>
      cases hu.symm.trans hx
      cases hv.symm.trans hy
      exact ⟨fun h => ⟨h, fun hleft hright => absurd ⟨hleft, hright⟩ hmixed⟩, fun h => h.1⟩

theorem equals?_doubles {p q : Double} (hmixed : ¬(a.kind = .int ∧ b.kind = .int))
    (hp : a.toDouble? = some p) (hq : b.toDouble? = some q) : a.equals? b = some (p.beq q) := by
  cases a with
  | int i =>
      cases b with
      | int j => exact absurd ⟨rfl, rfl⟩ hmixed
      | float y =>
          cases hp
          cases hq
          rfl
      | _ => cases hq
  | float x =>
      cases b with
      | int j | float y =>
          cases hp
          cases hq
          rfl
      | _ => cases hq
  | _ => cases hp

end Value

namespace BinaryOp

def Holds (op : BinaryOp) (a b : Value) : Prop := op.apply a b = .ok (.bool true)

def isComparison : BinaryOp → Bool
  | equal | notEqual | less | lessEqual | greater | greaterEqual => true
  | _ => false

/-- What a comparison says of the two numbers that it goes by. -/
def decides : BinaryOp → Int → Int → Bool
  | equal, x, y => x == y
  | notEqual, x, y => !(x == y)
  | less, x, y => decide (x < y)
  | lessEqual, x, y => decide (x ≤ y)
  | greater, x, y => decide (y < x)
  | greaterEqual, x, y => decide (y ≤ x)
  | _, _, _ => false

variable {a b c : Value} {x y : Int}

theorem apply_comparison {op : BinaryOp} (hop : op.isComparison) (h : a.Compares b x y) :
    op.apply a b = .ok (.bool (op.decides x y)) := by
  cases h with
  | ints i j =>
      cases op with
      | equal | notEqual =>
          by_cases hsame : i = j <;>
            simp [apply, equality, Value.equals?, decides, hsame, Int64.toInt_inj]
      | less | lessEqual | greater | greaterEqual => rfl
      | _ => cases hop
  | doubles hmixed hx hy =>
      obtain ⟨p, hp, hx⟩ := Option.bind_eq_some_iff.mp hx
      obtain ⟨q, hq, hy⟩ := Option.bind_eq_some_iff.mp hy
      cases op with
      | equal | notEqual =>
          simp [apply, equality, Value.equals?_doubles hmixed hp hq, decides, Double.beq,
            Double.compareBy, hx, hy]
      | less | lessEqual | greater | greaterEqual =>
          simp [apply, comparison, arithmetic_doubles _ hp hq hmixed, decides, Double.lt, Double.le,
            Double.compareBy, hx, hy]
      | _ => cases hop

theorem holds_iff {op : BinaryOp} (hop : op.isComparison) (h : a.Compares b x y) :
    op.Holds a b ↔ op.decides x y := by
  rw [Holds, apply_comparison hop h]
  simp

section Laws

variable {u v w : Int}

theorem less_holds_iff (hu : a.widened? = some u) (hv : b.widened? = some v) : less.Holds a b ↔
    u < v ∨ (u = v ∧ a.kind = .int ∧ b.kind = .int ∧ a.exact < b.exact) := by
  obtain ⟨x, y, h⟩ := Value.compares hu hv
  rw [← h.lt_iff hu hv]
  exact (holds_iff rfl h).trans decide_eq_true_iff

theorem equal_holds_iff (hu : a.widened? = some u) (hv : b.widened? = some v) : equal.Holds a b ↔
    u = v ∧ (a.kind = .int → b.kind = .int → a.exact = b.exact) := by
  obtain ⟨x, y, h⟩ := Value.compares hu hv
  rw [← h.eq_iff hu hv]
  exact (holds_iff rfl h).trans beq_iff_eq

theorem lessEqual_holds_iff (hu : a.widened? = some u) (hv : b.widened? = some v) :
    lessEqual.Holds a b ↔ less.Holds a b ∨ equal.Holds a b := by
  obtain ⟨x, y, h⟩ := Value.compares hu hv
  rw [holds_iff rfl h, holds_iff rfl h, holds_iff rfl h]
  simp only [decides, decide_eq_true_iff, beq_iff_eq]
  omega

theorem less_trans (hu : a.widened? = some u) (hv : b.widened? = some v)
    (hw : c.widened? = some w) (hless : less.Holds a b) (hless' : less.Holds b c) :
    less.Holds a c := by
  rw [less_holds_iff hu hv] at hless
  rw [less_holds_iff hv hw] at hless'
  rw [less_holds_iff hu hw]
  rcases hless with hless | ⟨hsame, ha, -, hless⟩
  · exact .inl (by omega)
  · rcases hless' with hless' | ⟨hsame', -, hc, hless'⟩
    · exact .inl (by omega)
    · exact .inr ⟨by omega, ha, hc, by omega⟩

theorem equal_trans (hu : a.widened? = some u) (hv : b.widened? = some v)
    (hw : c.widened? = some w) (hequal : equal.Holds a b) (hequal' : equal.Holds b c) :
    u = w ∧ (¬(a.kind = .int ∧ b.kind ≠ .int ∧ c.kind = .int) → equal.Holds a c) := by
  obtain ⟨hsame, hexact⟩ := (equal_holds_iff hu hv).mp hequal
  obtain ⟨hsame', hexact'⟩ := (equal_holds_iff hv hw).mp hequal'
  refine ⟨by omega, fun hmiddle => (equal_holds_iff hu hw).mpr ⟨by omega, fun ha hc => ?_⟩⟩
  have hb : b.kind = .int := by
    by_contra hb
    exact hmiddle ⟨ha, hb, hc⟩
  exact (hexact ha hb).trans (hexact' hb hc)

theorem less_of_equal_less (hu : a.widened? = some u) (hv : b.widened? = some v)
    (hw : c.widened? = some w) (hequal : equal.Holds a b) (hless : less.Holds b c) :
    lessEqual.Holds a c ∧
      (¬(a.kind ≠ .int ∧ b.kind = .int ∧ c.kind = .int) → less.Holds a c) := by
  obtain ⟨hsame, hexact⟩ := (equal_holds_iff hu hv).mp hequal
  rw [lessEqual_holds_iff hu hw, less_holds_iff hu hw, equal_holds_iff hu hw]
  rcases (less_holds_iff hv hw).mp hless with hless | ⟨hsame', hb, hc, hless⟩
  · exact ⟨.inl (.inl (by omega)), fun _ => .inl (by omega)⟩
  · by_cases ha : a.kind = .int
    · have hsmaller : a.exact < c.exact := hexact ha hb ▸ hless
      have hint : u = w ∧ a.kind = .int ∧ c.kind = .int ∧ a.exact < c.exact :=
        ⟨by omega, ha, hc, hsmaller⟩
      exact ⟨.inl (.inr hint), fun _ => .inr hint⟩
    · exact ⟨.inr ⟨by omega, fun hint => absurd hint ha⟩,
        fun hfirst => absurd ⟨ha, hb, hc⟩ hfirst⟩

end Laws

theorem one_of_three (h : a.Compares b x y) :
    (less.Holds a b ∧ ¬equal.Holds a b ∧ ¬greater.Holds a b) ∨
    (¬less.Holds a b ∧ equal.Holds a b ∧ ¬greater.Holds a b) ∨
    (¬less.Holds a b ∧ ¬equal.Holds a b ∧ greater.Holds a b) := by
  rw [holds_iff rfl h, holds_iff rfl h, holds_iff rfl h]
  simp only [decides, decide_eq_true_iff, beq_iff_eq]
  omega

theorem kind_ne_int_iff (ha : a.IsNumber) : a.kind ≠ .int ↔ a.kind = .float := by
  obtain ⟨x, hx, -⟩ := ha
  cases a with
  | int | float => simp [Value.kind]
  | _ => cases hx

/-- The comparisons order the numbers, but for different integers that are the same double. A double
equals all of these, and is not smaller than the larger ones. -/
theorem numbers_ordered (ha : a.IsNumber) (hb : b.IsNumber) (hc : c.IsNumber) :
    ((less.Holds a b ∧ ¬equal.Holds a b ∧ ¬greater.Holds a b) ∨
      (¬less.Holds a b ∧ equal.Holds a b ∧ ¬greater.Holds a b) ∨
      (¬less.Holds a b ∧ ¬equal.Holds a b ∧ greater.Holds a b)) ∧
    (lessEqual.Holds a b ↔ less.Holds a b ∨ equal.Holds a b) ∧
    (less.Holds a b → less.Holds b c → less.Holds a c) ∧
    (equal.Holds a b → equal.Holds b c →
      (∃ x y, a.toDouble? = some x ∧ c.toDouble? = some y ∧ x.beq y) ∧
      (¬(a.kind = .int ∧ b.kind = .float ∧ c.kind = .int) → equal.Holds a c)) ∧
    (equal.Holds a b → less.Holds b c →
      lessEqual.Holds a c ∧
      (¬(a.kind = .float ∧ b.kind = .int ∧ c.kind = .int) → less.Holds a c)) := by
  obtain ⟨u, hu⟩ := ha.widened
  obtain ⟨v, hv⟩ := hb.widened
  obtain ⟨w, hw⟩ := hc.widened
  obtain ⟨x, y, h⟩ := Value.compares hu hv
  rw [← kind_ne_int_iff ha, ← kind_ne_int_iff hb]
  refine ⟨one_of_three h, lessEqual_holds_iff hu hv, less_trans hu hv hw, fun hequal hequal' => ?_,
    less_of_equal_less hu hv hw⟩
  obtain ⟨hsame, hequal⟩ := equal_trans hu hv hw hequal hequal'
  obtain ⟨x, hx, hxunits⟩ := Option.bind_eq_some_iff.mp hu
  obtain ⟨y, hy, hyunits⟩ := Option.bind_eq_some_iff.mp hw
  refine ⟨⟨x, y, hx, hy, ?_⟩, hequal⟩
  simp [Double.beq, Double.compareBy, hxunits, hyunits, hsame]

theorem widened?_kept :
    (Value.int 9007199254740992).widened? = some (9007199254740992 * (Double.unitsPerOne : Int)) ∧
    (Value.float (.ofInt 9007199254740992)).widened? =
      some (9007199254740992 * (Double.unitsPerOne : Int)) := by
  have hround : Double.roundInt 9007199254740992 = 9007199254740992 :=
    Double.roundInt_of_small (by decide)
  constructor
  · rw [Value.widened?_int, show Int64.toInt 9007199254740992 = 9007199254740992 by decide, hround]
  · rw [Value.widened?_ofInt (by decide), hround]

theorem widened?_lost :
    (Value.int 9007199254740993).widened? =
      some (9007199254740992 * (Double.unitsPerOne : Int)) := by
  have hround : Double.roundInt 9007199254740993 = 9007199254740992 := by decide +kernel
  rw [Value.widened?_int, show Int64.toInt 9007199254740993 = 9007199254740993 by decide, hround]

/-- A double that equals an integer and is not smaller than the next one. -/
theorem lessEqual_of_lost_unit :
    let a : Value := .float (.ofInt 9007199254740992)
    let b : Value := .int 9007199254740992
    let c : Value := .int 9007199254740993
    a.IsNumber ∧ b.IsNumber ∧ c.IsNumber ∧
    equal.Holds a b ∧ less.Holds b c ∧ lessEqual.Holds a c := by
  intro a b c
  obtain ⟨hb, ha⟩ := widened?_kept
  have hc := widened?_lost
  have hequal : equal.Holds a b := (equal_holds_iff ha hb).mpr ⟨rfl, fun hint => by cases hint⟩
  have hless : less.Holds b c := (less_holds_iff hb hc).mpr (.inr ⟨rfl, rfl, rfl, by decide⟩)
  obtain ⟨-, -, -, -, h⟩ := numbers_ordered (Value.isNumber_of_widened ha)
    (Value.isNumber_of_widened hb) (Value.isNumber_of_widened hc)
  exact ⟨Value.isNumber_of_widened ha, Value.isNumber_of_widened hb, Value.isNumber_of_widened hc,
    hequal, hless, (h hequal hless).1⟩

/-- Two integers that differ equal one double, which is not smaller than the larger one. -/
theorem equal_not_transitive :
    let a : Value := .int 9007199254740992
    let b : Value := .float (.ofInt 9007199254740992)
    let c : Value := .int 9007199254740993
    a.IsNumber ∧ b.IsNumber ∧ c.IsNumber ∧
    (equal.Holds a b ∧ equal.Holds b c ∧ ¬equal.Holds a c) ∧
    (equal.Holds b a ∧ less.Holds a c ∧ ¬less.Holds b c) := by
  intro a b c
  obtain ⟨ha, hb⟩ := widened?_kept
  have hc := widened?_lost
  refine ⟨Value.isNumber_of_widened ha, Value.isNumber_of_widened hb, Value.isNumber_of_widened hc,
    ⟨?_, ?_, ?_⟩, ?_, ?_, ?_⟩
  · exact (equal_holds_iff ha hb).mpr ⟨rfl, fun _ hint => by cases hint⟩
  · exact (equal_holds_iff hb hc).mpr ⟨rfl, fun hint => by cases hint⟩
  · exact fun hequal => absurd (((equal_holds_iff ha hc).mp hequal).2 rfl rfl) (by decide)
  · exact (equal_holds_iff hb ha).mpr ⟨rfl, fun hint => by cases hint⟩
  · exact (less_holds_iff ha hc).mpr (.inr ⟨rfl, rfl, rfl, by decide⟩)
  · rw [less_holds_iff hb hc]
    rintro (hless | ⟨-, hint, -⟩)
    · exact absurd hless (Int.lt_irrefl _)
    · cases hint

end BinaryOp

end Scriptlet
