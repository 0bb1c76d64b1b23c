/-! Double-precision numbers, held exactly. The least positive double is 2⁻¹⁰⁷⁴, and every
finite double is a whole number of these units; so a finite double here is a sign and a
natural number, and arithmetic on it is arithmetic on integers followed by one rounding. -/

namespace Scriptlet

/-- The exponent of the last place of the largest doubles, in units. -/
@[irreducible] def Double.topExponent : Nat := 2045

/-- The first power of two that is too large, 2¹⁰²⁴, in units. -/
def Double.limit : Nat := 1 <<< (53 + topExponent)

/-- `units` has at most 53 significant bits and stays below the limit. -/
def Double.Representable (units : Nat) : Prop :=
  1 <<< (units.log2 - 52) ∣ units ∧ units < Double.limit

/-- A zero keeps its sign; all numbers that are not numbers are one value. -/
inductive Double where
  | nan
  | infinite (negative : Bool)
  | finite (negative : Bool) (units : Nat) (representable : Double.Representable units)
deriving DecidableEq

namespace Double

def unitsPerOne : Nat := 1 <<< 1074

theorem aligned_shift {m : Nat} (hm : m ≤ 1 <<< 53) (e : Nat) :
    1 <<< ((m <<< e).log2 - 52) ∣ m <<< e := by
  simp only [Nat.shiftLeft_eq, Nat.one_mul] at hm ⊢
  by_cases hz : m = 0
  · simp [hz]
  by_cases htop : m = 2 ^ 53
  · subst htop
    rw [← Nat.pow_add, Nat.log2_two_pow]
    exact Nat.pow_dvd_pow 2 (by omega)
  · have hlt : m * 2 ^ e < 2 ^ (53 + e) := by
      rw [Nat.pow_add]
      exact Nat.mul_lt_mul_of_pos_right (by omega) (Nat.two_pow_pos e)
    have hne : m * 2 ^ e ≠ 0 := Nat.mul_ne_zero hz (Nat.pos_iff_ne_zero.1 (Nat.two_pow_pos e))
    have hlog : (m * 2 ^ e).log2 < 53 + e := (Nat.log2_lt hne).2 hlt
    exact Nat.dvd_trans (Nat.pow_dvd_pow 2 (by omega)) (Nat.dvd_mul_left _ _)

theorem representable_shift {m e : Nat} (hm : m ≤ 1 <<< 53) (he : m <<< e < limit) :
    Representable (m <<< e) :=
  ⟨aligned_shift hm e, he⟩

theorem shiftLeft_lt_limit {m e : Nat} (hm : m < 1 <<< 53) (he : e ≤ 2045) :
    m <<< e < limit := by
  have htop : e ≤ topExponent := by rwa [topExponent]
  simp only [limit, Nat.shiftLeft_eq, Nat.one_mul, Nat.pow_add] at hm ⊢
  exact Nat.lt_of_le_of_lt (Nat.mul_le_mul_left _ (Nat.pow_le_pow_right Nat.two_pos htop))
    (Nat.mul_lt_mul_of_pos_right hm (Nat.two_pow_pos _))

theorem representable_zero : Representable 0 := by
  refine ⟨Nat.dvd_zero _, ?_⟩
  rw [limit, Nat.one_shiftLeft]
  exact Nat.two_pow_pos _

def zero (negative : Bool) : Double := .finite negative 0 representable_zero

/-- A sign, eleven bits of exponent and 52 bits of fraction, as stored in memory. -/
def ofBits (bits : UInt64) : Double :=
  let negative := bits >>> 63 != 0
  let exponent := ((bits >>> 52) &&& 2047).toNat
  let fraction := bits.toNat % 1 <<< 52
  if he : exponent = 2047 then
    if fraction = 0 then .infinite negative else .nan
  else
    let significand := if exponent = 0 then fraction else 1 <<< 52 + fraction
    .finite negative (significand <<< (exponent - 1)) (by
      have hf : fraction < 1 <<< 52 := Nat.mod_lt _ (by decide)
      have hs : significand < 1 <<< 53 := by
        simp only [significand]
        split <;> omega
      have hx : exponent ≤ 2047 := by
        simp only [exponent, UInt64.toNat_and]
        exact Nat.and_le_right
      refine representable_shift (Nat.le_of_lt hs) ?_
      exact shiftLeft_lt_limit hs (by omega))

/-- The signed number of units, with the infinities just outside the finite range. -/
def signedUnits? : Double → Option Int
  | .nan => none
  | .infinite negative => some (if negative then -(limit : Int) else limit)
  | .finite negative units _ => some (if negative then -(units : Int) else units)

def toInt? : Double → Option Int
  | .finite negative units _ =>
      if units % unitsPerOne = 0 then
        let whole : Int := units / unitsPerOne
        some (if negative then -whole else whole)
      else none
  | _ => none

end Double

end Scriptlet
