import Scriptlet.Double.Arithmetic

/-! Whole parts of doubles, and the integers of 64 bits that doubles become. -/

namespace Scriptlet

namespace Double

theorem shift_dvd_div_mul {units places : Nat} (e : Nat) (h : 1 <<< places ∣ units) :
    1 <<< places ∣ units / 1 <<< e * 1 <<< e := by
  rw [Nat.one_shiftLeft] at h ⊢
  rw [Nat.one_shiftLeft]
  by_cases hle : places ≤ e
  · exact Nat.dvd_trans (Nat.pow_dvd_pow 2 hle) (Nat.dvd_mul_left _ _)
  · have hdvd : 2 ^ e ∣ units := Nat.dvd_trans (Nat.pow_dvd_pow 2 (by omega)) h
    rwa [Nat.div_mul_cancel hdvd]

theorem representable_whole {units : Nat} (h : Representable units) :
    Representable (units / unitsPerOne * unitsPerOne) := by
  obtain ⟨haligned, hlimit⟩ := h
  have hle : units / unitsPerOne * unitsPerOne ≤ units := Nat.div_mul_le_self _ _
  refine ⟨?_, Nat.lt_of_le_of_lt hle hlimit⟩
  by_cases hz : units / unitsPerOne * unitsPerOne = 0
  · rw [hz]
    exact Nat.dvd_zero _
  have hlog : (units / unitsPerOne * unitsPerOne).log2 ≤ units.log2 :=
    (Nat.le_log2 (by omega)).mpr (Nat.le_trans (Nat.log2_self_le hz) hle)
  refine shift_dvd_div_mul 1074 (Nat.dvd_trans ?_ haligned)
  rw [Nat.one_shiftLeft, Nat.one_shiftLeft]
  exact Nat.pow_dvd_pow 2 (by omega)

def trunc : Double → Double
  | .nan => .nan
  | .infinite negative => .infinite negative
  | .finite negative units h =>
      .finite negative (units / unitsPerOne * unitsPerOne) (representable_whole h)

/-- What is cut off. An infinity has no such part, so this is `nan` then. -/
def fract (x : Double) : Double := x.sub x.trunc

def floor (x : Double) : Double :=
  if x.trunc.le x then x.trunc else x.trunc.sub (ofInt 1)

def isFinite : Double → Bool
  | .finite .. => true
  | _ => false

/-- Whether a number lies between the ends of the integers of 64 bits as doubles. The upper end is
rounded up, to a double that is too large, and is left out. -/
def fitsInt64 (x : Double) : Bool :=
  (ofInt Int64.minValue.toInt).le x && x.lt (ofInt Int64.maxValue.toInt)

/-- Cut off toward zero; beyond the integers of 64 bits the nearest one, and zero for `nan`. -/
def toInt64 : Double → Int64
  | .nan => 0
  | .infinite negative => if negative then .minValue else .maxValue
  | .finite negative units _ =>
      let whole : Int := units / unitsPerOne
      .ofInt (max Int64.minValue.toInt
        (min (if negative then -whole else whole) Int64.maxValue.toInt))

end Double

end Scriptlet
