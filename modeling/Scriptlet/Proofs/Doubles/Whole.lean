import Scriptlet.Proofs.Doubles.Rounding
import Scriptlet.Syntax

/-! Integers as doubles and doubles as integers. Rounding keeps the order of integers, and one of
64 bits becomes a whole double; a whole double between the ends of 64 bits becomes the integer that
it equals. -/

namespace Scriptlet

namespace Double

def units? : Double → Option Int
  | .finite negative units _ => some (if negative then -(units : Int) else units)
  | _ => none

section Rounded

variable {n n' : Nat}

theorem nearestUnits_mono (h : n ≤ n') : nearestUnits n 1 ≤ nearestUnits n' 1 := by
  by_contra hlt
  -- each of the two is at least as near to the other number as to its own
  have hnear := (@nearestUnits_nearest n 1 Nat.one_pos).least _
    (aligned_nearestUnits (n := n') Nat.one_pos)
  have hnear' := (@nearestUnits_nearest n' 1 Nat.one_pos).least _
    (aligned_nearestUnits (n := n) Nat.one_pos)
  unfold distance at hnear hnear'
  have hsame : n = n' := by omega
  rw [hsame] at hlt
  exact hlt (Nat.le_refl _)

theorem aligned_one_shift (e : Nat) : Aligned (1 <<< e) := aligned_shift (by decide) e

theorem nearestUnits_pos (h : 0 < n) : 0 < nearestUnits n 1 := by
  have hone : nearestUnits 1 1 = 1 := nearestUnits_of_aligned (aligned_one_shift 0)
  exact hone ▸ nearestUnits_mono h

theorem nearestUnits_whole (h : n ≤ 9223372036854775807) :
    nearestUnits n 1 ≤ 9223372036854775808 ∧
      (nearestUnits n 1 < 9223372036854775808 ↔ n < 9223372036854775296) := by
  obtain ⟨m, e, hunits, hrounded, hm, hlow, hhigh⟩ := @isRounded_nearestUnits n 1 Nat.one_pos
  simp only [Nat.one_mul, Nat.mul_one] at hrounded hlow hhigh
  have he : e ≤ 10 := by
    rcases hlow with rfl | hle
    · omega
    · have hlt : 2 ^ (52 + e) < 2 ^ 63 := Nat.lt_of_le_of_lt hle (by omega)
      have := (Nat.pow_lt_pow_iff_right Nat.one_lt_two).mp hlt
      omega
  rw [hunits]
  by_cases htop : e = 10
  · subst htop
    obtain ⟨hle, hge, heven⟩ := hrounded
    refine ⟨by omega, fun hlt => ?_, fun hlt => by omega⟩
    by_contra hn
    have := heven
    omega
  · have hpow : 2 ^ e ≤ 2 ^ 9 := Nat.pow_le_pow_right Nat.two_pos (by omega)
    have hprod : m * 2 ^ e ≤ 2 ^ 53 * 2 ^ 9 := Nat.mul_le_mul hm hpow
    have hn : n < 2 ^ (53 + 9) :=
      Nat.lt_of_lt_of_le hhigh (Nat.pow_le_pow_right Nat.two_pos (by omega))
    constructor <;> omega

theorem nearestUnits_least : nearestUnits 9223372036854775808 1 = 9223372036854775808 :=
  nearestUnits_of_aligned (aligned_one_shift 63)

theorem nearestUnits_greatest : nearestUnits 9223372036854775807 1 = 9223372036854775808 := by
  obtain ⟨hle, hlt⟩ := nearestUnits_whole (Nat.le_refl 9223372036854775807)
  omega

theorem whole_lt_limit {m : Nat} (h : m ≤ 9223372036854775808) : m * unitsPerOne < limit := by
  have hle : ∀ e, m <<< e ≤ 1 <<< (63 + e) := by
    intro e
    rw [Nat.shiftLeft_eq, Nat.one_shiftLeft, Nat.pow_add]
    exact Nat.mul_le_mul_right _ h
  rw [mul_unitsPerOne]
  exact Nat.lt_of_le_of_lt (hle 1074) (shiftLeft_lt_limit (by decide) (by decide))

theorem nearest_whole (negative : Bool) (h : n ≤ 9223372036854775808) :
    ∃ hunits, nearest negative (n * unitsPerOne) 1 =
      .finite negative (nearestUnits n 1 * unitsPerOne) hunits := by
  have hunits : nearestUnits (n * unitsPerOne) 1 = nearestUnits n 1 * unitsPerOne := by
    rw [mul_unitsPerOne, mul_unitsPerOne, nearestUnits_shift]
  have hle : nearestUnits n 1 ≤ 9223372036854775808 := nearestUnits_least ▸ nearestUnits_mono h
  have hlt := whole_lt_limit hle
  rw [← hunits] at hlt ⊢
  rw [nearest_eq Nat.one_pos, dif_pos hlt]
  exact ⟨_, rfl⟩

theorem toInt?_whole (m : Nat) (hunits : Representable (m * unitsPerOne)) :
    (Double.finite false (m * unitsPerOne) hunits).toInt? = some (m : Int) := by
  have hdiv : ((m * unitsPerOne : Nat) : Int) / unitsPerOne = m := by
    rw [← Int.natCast_ediv, Nat.mul_div_cancel m unitsPerOne_pos]
  simp only [toInt?, Nat.mul_mod_left, if_true, hdiv]
  rfl

end Rounded

section Integers

variable {n n' : Int}

def roundInt (n : Int) : Int :=
  if n < 0 then -(nearestUnits n.natAbs 1 : Int) else nearestUnits n.natAbs 1

theorem roundInt_mono (h : n ≤ n') : roundInt n ≤ roundInt n' := by
  unfold roundInt
  split
  · split
    · have hle : nearestUnits n'.natAbs 1 ≤ nearestUnits n.natAbs 1 := nearestUnits_mono (by omega)
      omega
    · omega
  · rw [if_neg (by omega)]
    have hle : nearestUnits n.natAbs 1 ≤ nearestUnits n'.natAbs 1 := nearestUnits_mono (by omega)
    omega

theorem units?_ofInt (h : n.natAbs ≤ 9223372036854775808) :
    (ofInt n).units? = some (roundInt n * unitsPerOne) := by
  obtain ⟨hunits, hnearest⟩ := nearest_whole (decide (n < 0)) h
  rw [ofInt, hnearest, units?, roundInt]
  by_cases hneg : n < 0 <;> simp [hneg]

theorem roundInt_of_aligned (h : Aligned n.natAbs) : roundInt n = n := by
  rw [roundInt, nearestUnits_of_aligned h]
  split <;> omega

theorem roundInt_of_small (h : n.natAbs ≤ 1 <<< 53) : roundInt n = n :=
  roundInt_of_aligned (aligned_shift h 0)

theorem nearest_eq_ofInt (n : Int) :
    nearest (n * unitsPerOne < 0) (n * (unitsPerOne : Int)).natAbs 1 = ofInt n := by
  have hpos : (0 : Int) < unitsPerOne := Int.natCast_pos.mpr unitsPerOne_pos
  have hneg : (n * unitsPerOne < 0) = (n < 0) := propext
    ⟨fun h => by nlinarith, fun h => Int.mul_neg_of_neg_of_pos h hpos⟩
  rw [Int.natAbs_mul, Int.natAbs_natCast, ofInt]
  simp only [hneg]

theorem units?_least : (ofInt Int64.minValue.toInt).units? =
    some (-9223372036854775808 * (unitsPerOne : Int)) := by
  have hmin : Int64.minValue.toInt = -9223372036854775808 := by decide
  have hround : roundInt (-9223372036854775808) = -9223372036854775808 :=
    congrArg (fun m : Nat => -(m : Int)) nearestUnits_least
  rw [hmin, units?_ofInt (by decide), hround]

theorem units?_greatest : (ofInt Int64.maxValue.toInt).units? =
    some (9223372036854775808 * (unitsPerOne : Int)) := by
  have hmax : Int64.maxValue.toInt = 9223372036854775807 := by decide
  have hround : roundInt 9223372036854775807 = 9223372036854775808 :=
    congrArg (fun m : Nat => (m : Int)) nearestUnits_greatest
  rw [hmax, units?_ofInt (by decide), hround]

end Integers

section Comparison

variable {x y : Double} {u v : Int}

theorem signedUnits?_of_units? (h : x.units? = some u) : x.signedUnits? = some u := by
  cases x with
  | finite => exact h
  | _ => cases h

theorem compareBy_of_units? (holds : Int → Int → Bool) (hx : x.units? = some u)
    (hy : y.units? = some v) : compareBy holds x y = holds u v := by
  simp only [compareBy, signedUnits?_of_units? hx, signedUnits?_of_units? hy]

theorem units?_zero (negative : Bool) : (zero negative).units? = some 0 := by
  cases negative <;> rfl

theorem isFinite_iff_units? : x.isFinite ↔ ∃ u, x.units? = some u := by
  cases x <;> simp [isFinite, units?]

/-- The bounds are those of 64 bits, although one of them is rounded. -/
theorem fitsInt64_iff (h : x.units? = some u) : x.fitsInt64 ↔
    -9223372036854775808 * (unitsPerOne : Int) ≤ u ∧ u < 9223372036854775808 * unitsPerOne := by
  rw [fitsInt64, le, lt, compareBy_of_units? _ units?_least h,
    compareBy_of_units? _ h units?_greatest, Bool.and_eq_true, decide_eq_true_iff,
    decide_eq_true_iff]

end Comparison

section Parts

variable {x y : Double} {u v : Int}

theorem unitsPerOne_pos_int : (0 : Int) < unitsPerOne := Int.natCast_pos.mpr unitsPerOne_pos

theorem units?_neg (h : x.units? = some u) : x.neg.units? = some (-u) := by
  cases x with
  | finite negative units hunits =>
      obtain rfl := Option.some.inj h
      cases negative <;> simp [neg, units?]
  | _ => cases h

theorem units?_add_of_eq_zero (hx : x.units? = some u) (hy : y.units? = some v) (h : u + v = 0) :
    (x.add y).units? = some 0 := by
  cases x with
  | finite s a ha =>
      cases y with
      | finite t b hb =>
          obtain rfl := Option.some.inj hx
          obtain rfl := Option.some.inj hy
          rw [add, if_pos h, units?_zero]
      | _ => cases hy
  | _ => cases hx

theorem add_of_ne_zero (hx : x.units? = some u) (hy : y.units? = some v) (h : u + v ≠ 0) :
    x.add y = nearest (u + v < 0) (u + v).natAbs 1 := by
  cases x with
  | finite s a ha =>
      cases y with
      | finite t b hb =>
          obtain rfl := Option.some.inj hx
          obtain rfl := Option.some.inj hy
          rw [add, if_neg h]
      | _ => cases hy
  | _ => cases hx

theorem units?_trunc (h : x.units? = some u) :
    x.trunc.units? = some (u.tdiv unitsPerOne * unitsPerOne) := by
  cases x with
  | finite negative units hunits =>
      obtain rfl := Option.some.inj h
      cases negative <;> simp [trunc, units?, Int.neg_tdiv]
  | _ => cases h

theorem beq_zero_nearest {m : Nat} (negative : Bool) (h : 0 < m) :
    (nearest negative m 1).beq (zero false) = false := by
  have hpos := nearestUnits_pos h
  have hlimit : 0 < limit := Nat.lt_of_le_of_lt (Nat.zero_le _) representable_zero.2
  rw [nearest_eq Nat.one_pos]
  split <;> cases negative <;>
    simp only [beq, compareBy, signedUnits?, zero, beq_eq_false_iff_ne] <;> omega

theorem fract_beq_zero_iff :
    x.fract.beq (zero false) ↔ ∃ u, x.units? = some u ∧ (unitsPerOne : Int) ∣ u := by
  cases hx : x.units? with
  | none =>
      cases x with
      | finite => cases hx
      | nan => simp [fract, sub, add, beq, compareBy, signedUnits?]
      | infinite negative =>
          cases negative <;> simp [fract, sub, trunc, neg, add, beq, compareBy, signedUnits?]
  | some u =>
      have htrunc := units?_neg (units?_trunc hx)
      have hdvd : (unitsPerOne : Int) ∣ u ↔ u + -(u.tdiv unitsPerOne * unitsPerOne) = 0 := by
        rw [Int.dvd_iff_tmod_eq_zero]
        have := Int.tdiv_mul_add_tmod u unitsPerOne
        omega
      simp only [Option.some.injEq, exists_eq_left', hdvd, fract, sub]
      by_cases hzero : u + -(u.tdiv unitsPerOne * unitsPerOne) = 0
      · rw [beq, compareBy_of_units? _ (units?_add_of_eq_zero hx htrunc hzero) (units?_zero false)]
        exact iff_of_true rfl hzero
      · rw [add_of_ne_zero hx htrunc hzero, beq_zero_nearest _ (Int.natAbs_pos.mpr hzero)]
        exact iff_of_false Bool.false_ne_true hzero

/-- What is not whole is so small that the whole numbers around it are doubles too. -/
theorem tdiv_lt_of_not_dvd (h : x.units? = some u) (hpart : ¬(unitsPerOne : Int) ∣ u) :
    (u.tdiv unitsPerOne).natAbs < 1 <<< 52 := by
  cases x with
  | finite negative units hunits =>
      have habs : u.natAbs = units := by
        obtain rfl := Option.some.inj h
        cases negative <;> simp
      rw [Int.natCast_dvd, habs] at hpart
      have hlt : units < 1 <<< (52 + 1074) := Aligned.lt_of_not_dvd hunits.1 hpart
      rw [Nat.shiftLeft_add, ← mul_unitsPerOne] at hlt
      rw [Int.natAbs_tdiv, habs, Int.natAbs_natCast]
      exact Nat.div_lt_of_lt_mul (by rwa [Nat.mul_comm])
  | _ => cases h

theorem units?_floor (h : x.units? = some u) :
    x.floor.units? = some (u.fdiv unitsPerOne * unitsPerOne) := by
  have hpos := unitsPerOne_pos_int
  have htrunc := units?_trunc h
  have hparts := Int.tdiv_mul_add_tmod u unitsPerOne
  rw [floor, le, compareBy_of_units? _ htrunc h, Int.fdiv_eq_ediv_of_nonneg u hpos.le]
  have hrest := Int.lt_tmod_of_pos u hpos
  by_cases hle : u.tdiv unitsPerOne * unitsPerOne ≤ u
  · have hquotient : u / unitsPerOne = u.tdiv unitsPerOne :=
      ((Int.ediv_emod_unique hpos).mpr ⟨by linarith, by linarith, Int.tmod_lt_of_pos u hpos⟩).1
    rw [if_pos (decide_eq_true hle), htrunc, hquotient]
  · have hneg : u < 0 := by
      by_contra hnonneg
      have := Int.tmod_nonneg (unitsPerOne : Int) (not_lt.mp hnonneg)
      omega
    have hquotient : u / unitsPerOne = u.tdiv unitsPerOne - 1 := by
      have hbelow : u.tmod unitsPerOne + unitsPerOne +
          unitsPerOne * (u.tdiv unitsPerOne - 1) = u := by
        linarith
      exact ((Int.ediv_emod_unique hpos).mpr ⟨hbelow, by linarith, by linarith⟩).1
    have hsmall : (u.tdiv unitsPerOne).natAbs < 1 <<< 52 := by
      refine tdiv_lt_of_not_dvd h fun hdvd => hle ?_
      rw [Int.tdiv_mul_cancel hdvd]
    have hsum : u.tdiv unitsPerOne * unitsPerOne + -(roundInt 1 * unitsPerOne) =
        (u.tdiv unitsPerOne - 1) * unitsPerOne := by
      rw [roundInt_of_small (by decide)]
      ring
    have hnonpos : u.tdiv unitsPerOne ≤ 0 := by
      by_contra hlt
      have := Int.mul_le_mul_of_nonneg_right (not_le.mp hlt : 1 ≤ u.tdiv unitsPerOne) hpos.le
      omega
    rw [if_neg (by simpa using hle), hquotient, sub,
      add_of_ne_zero htrunc (units?_neg (units?_ofInt (by decide))), hsum]
    · rw [nearest_eq_ofInt, units?_ofInt (by omega), roundInt_of_small (by omega)]
    · rw [hsum]
      exact Int.mul_ne_zero (by omega) (Int.ne_of_gt hpos)

theorem isFinite_floor (x : Double) : x.floor.isFinite = x.isFinite := by
  cases hx : x.units? with
  | some u =>
      rw [isFinite_iff_units?.mpr ⟨u, hx⟩, isFinite_iff_units?.mpr ⟨_, units?_floor hx⟩]
  | none =>
      cases x with
      | finite => cases hx
      | nan => simp [floor, trunc, le, compareBy, signedUnits?, sub, add, isFinite]
      | infinite negative =>
          cases negative <;> simp [floor, trunc, le, compareBy, signedUnits?, isFinite]

theorem toInt64_of_whole {n : Int} (h : x.units? = some (n * unitsPerOne))
    (hmin : -9223372036854775808 ≤ n) (hmax : n < 9223372036854775808) :
    x.toInt64.toInt = n := by
  cases x with
  | finite negative units hunits =>
      have hvalue :
          (if negative then -((units : Int) / unitsPerOne) else units / unitsPerOne) = n := by
        have hne : (unitsPerOne : Int) ≠ 0 := Int.ne_of_gt unitsPerOne_pos_int
        have hunits := Option.some.inj h
        cases negative with
        | false =>
            have hunits : (units : Int) = n * unitsPerOne := hunits
            simp [hunits, Int.mul_ediv_cancel n hne]
        | true =>
            have hunits : (units : Int) = -n * unitsPerOne := by
              rw [Int.neg_mul, ← hunits]
              simp
            simp only [if_true, hunits, Int.mul_ediv_cancel (-n) hne, Int.neg_neg]
      have hleast : Int64.minValue.toInt = -9223372036854775808 := by decide
      have hgreatest : Int64.maxValue.toInt = 9223372036854775807 := by decide
      have hclamp : max Int64.minValue.toInt (min n Int64.maxValue.toInt) = n := by omega
      rw [toInt64, hvalue, hclamp]
      exact Int64.toInt_ofInt_of_le hmin hmax
  | _ => cases h

/-- The guard before the conversion lets through just what it can convert. -/
theorem toInt64_eq_iff {n : Int64} : x.units? = some (n.toInt * unitsPerOne) ↔
    (∃ u, x.units? = some u ∧ (unitsPerOne : Int) ∣ u) ∧ x.fitsInt64 ∧ x.toInt64 = n := by
  have hpos := unitsPerOne_pos_int
  constructor
  · intro h
    have hmin := n.le_toInt
    have hmax := n.toInt_lt
    refine ⟨⟨_, h, Int.dvd_mul_left _ _⟩, (fitsInt64_iff h).mpr ⟨?_, ?_⟩, Int64.toInt_inj.mp ?_⟩
    · exact Int.mul_le_mul_of_nonneg_right hmin hpos.le
    · exact Int.mul_lt_mul_of_pos_right hmax hpos
    · exact toInt64_of_whole h hmin hmax
  · rintro ⟨⟨_, h, whole, rfl⟩, hfits, rfl⟩
    rw [Int.mul_comm] at h
    obtain ⟨hmin, hmax⟩ := (fitsInt64_iff h).mp hfits
    rw [toInt64_of_whole h (Int.le_of_mul_le_mul_right hmin hpos)
      (Int.lt_of_mul_lt_mul_right hmax hpos.le), h]

end Parts

end Double

theorem Literal.number_eq_int_iff {x : Double} {n : Int64} :
    number x = .int n ↔ x.units? = some (n.toInt * Double.unitsPerOne) := by
  rw [Double.toInt64_eq_iff, ← Double.fract_beq_zero_iff, number]
  split
  · rename_i hguard
    rw [Bool.and_eq_true] at hguard
    simp [hguard]
  · rename_i hguard
    rw [Bool.and_eq_true, not_and] at hguard
    simp only [reduceCtorEq, false_iff, not_and]
    exact fun hwhole hfits => absurd hfits (hguard hwhole)

end Scriptlet
