import Mathlib.Tactic.Linarith
import Mathlib.Tactic.Ring
import Scriptlet.Decimal.Shortest
import Scriptlet.Proofs.Doubles.Rounding

/-! The shortest digits of a double read back. What a basin holds is rounded to its double, and a
grid of seventeen digits is too narrow to miss a basin. -/

namespace Scriptlet

namespace Double

section Rounded

variable {n d m e : Nat}

theorem nearestUnits_eq_mul (hd : 0 < d) (hrounded : IsRounded n (d * 2 ^ e) m)
    (hlow : e = 0 ∨ 2 ^ (52 + e) * d ≤ n) (hhigh : n < 2 ^ (53 + e) * d) :
    nearestUnits n d = m * 2 ^ e := by
  have hlog : (n / d).log2 - 52 = e := by
    have hlt : n / d < 2 ^ (53 + e) := (Nat.div_lt_iff_lt_mul hd).mpr hhigh
    by_cases hzero : n / d = 0
    · rcases hlow with rfl | hle
      · simp [hzero]
      · have hquotient := (Nat.le_div_iff_mul_le hd).mpr hle
        have hpos := Nat.two_pow_pos (52 + e)
        omega
    · have htop : (n / d).log2 < 53 + e := (Nat.log2_lt hzero).mpr hlt
      rcases hlow with rfl | hle
      · omega
      · have hbottom := (Nat.le_log2 hzero).mpr ((Nat.le_div_iff_mul_le hd).mpr hle)
        omega
  have hD : 0 < d * 2 ^ e := Nat.mul_pos hd (Nat.two_pow_pos e)
  rw [nearestUnits, hlog, Nat.shiftLeft_eq, Nat.shiftLeft_eq,
    (roundHalfEven_isRounded hD n).unique hD hrounded]

theorem nearestUnits_mul {factor : Nat} (hd : 0 < d) (hfactor : 0 < factor) :
    nearestUnits (n * factor) (d * factor) = nearestUnits n d := by
  have hstep : 0 < d <<< ((n / d).log2 - 52) := by
    rw [Nat.shiftLeft_eq]
    exact Nat.mul_pos hd (Nat.two_pow_pos _)
  have hscaled : ∀ places, (d * factor) <<< places = d <<< places * factor := by
    intro places
    rw [Nat.shiftLeft_eq, Nat.shiftLeft_eq, Nat.mul_right_comm]
  rw [nearestUnits, Nat.mul_div_mul_right n d hfactor, hscaled, roundHalfEven_mul hstep hfactor]
  rfl

theorem nearestUnits_congr {n' d' : Nat} (hd : 0 < d) (hd' : 0 < d') (h : n * d' = n' * d) :
    nearestUnits n d = nearestUnits n' d' := by
  rw [← nearestUnits_mul hd hd', h, Nat.mul_comm d d', nearestUnits_mul hd' hd]

theorem Aligned.exists_significand {units : Nat} (h : Aligned units) (hpos : 0 < units) :
    ∃ m e, units = m * 2 ^ e ∧ units.log2 - 52 = e ∧ 0 < m ∧ m < 2 ^ 53 ∧ (e = 0 ∨ 2 ^ 52 ≤ m) := by
  obtain ⟨m, hm⟩ := h
  generalize he : units.log2 - 52 = e at hm
  rw [Nat.one_shiftLeft, Nat.mul_comm] at hm
  have hstep := Nat.two_pow_pos e
  refine ⟨m, e, hm, rfl, ?_, ?_, ?_⟩
  · refine Nat.pos_of_mul_pos_right (b := 2 ^ e) ?_
    omega
  · have hlt : units < 2 ^ (53 + e) :=
      Nat.lt_of_lt_of_le Nat.lt_log2_self (Nat.pow_le_pow_right Nat.two_pos (by omega))
    rw [Nat.pow_add, hm] at hlt
    exact Nat.lt_of_mul_lt_mul_right hlt
  · by_cases hzero : e = 0
    · exact .inl hzero
    · have hle : 2 ^ (52 + e) ≤ units := (Nat.le_log2 (by omega)).mp (by omega)
      rw [Nat.pow_add, hm] at hle
      exact .inr (Nat.le_of_mul_le_mul_right hle hstep)

end Rounded

end Double

namespace Decimal

open Double

section Basin

variable {units n d m e : Nat}

theorem Basin.ofUnits_mul (hlog : (m * 2 ^ e).log2 - 52 = e) :
    Basin.ofUnits (m * 2 ^ e) =
      ⟨4 * (m * 2 ^ e) - (if m = 2 ^ 52 ∧ 0 < e then 2 ^ e else 2 * 2 ^ e),
      4 * (m * 2 ^ e), 4 * (m * 2 ^ e) + 2 * 2 ^ e, m % 2 = 0⟩ := by
  have hstep := Nat.two_pow_pos e
  have hleast : m * 2 ^ e = 2 ^ e * 2 ^ 52 ∧ 1 < 2 ^ e ↔ m = 2 ^ 52 ∧ 0 < e := by
    rw [Nat.mul_comm (2 ^ e), Nat.mul_left_inj hstep.ne', Nat.one_lt_two_pow_iff,
      Nat.pos_iff_ne_zero]
  simp only [ofUnits, hlog, Nat.shiftLeft_eq, Nat.one_mul, hleast, Nat.mul_div_cancel m hstep]

theorem Basin.holds_iff (hlog : (m * 2 ^ e).log2 - 52 = e) (hm : 0 < m) :
    (Basin.ofUnits (m * 2 ^ e)).holds n d ↔
      4 * (m * (d * 2 ^ e)) ≤
        n + (if m = 2 ^ 52 ∧ 0 < e then d * 2 ^ e else 2 * (d * 2 ^ e)) ∧
      n ≤ 4 * (m * (d * 2 ^ e)) + 2 * (d * 2 ^ e) ∧
      (m % 2 = 1 → 4 * (m * (d * 2 ^ e)) < n + 2 * (d * 2 ^ e) ∧
        n < 4 * (m * (d * 2 ^ e)) + 2 * (d * 2 ^ e)) := by
  have hvalue : 4 * (m * 2 ^ e) * d = 4 * (m * (d * 2 ^ e)) := by ring
  have hplace : 2 ^ e * d = d * 2 ^ e := Nat.mul_comm ..
  rw [ofUnits_mul hlog, holds]
  dsimp only
  rw [Nat.sub_mul, Nat.add_mul, ite_mul, Nat.mul_assoc 2, hvalue, hplace]
  generalize d * 2 ^ e = D
  have hsome : D ≤ m * D := Nat.le_mul_of_pos_left D hm
  by_cases heven : m % 2 = 0
  · rw [if_pos (decide_eq_true heven), Bool.and_eq_true, decide_eq_true_eq, decide_eq_true_eq]
    split <;> omega
  · have hodd : ¬m = 2 ^ 52 := by
      rintro rfl
      exact heven (by decide)
    rw [if_neg (by simpa using heven), Bool.and_eq_true, decide_eq_true_eq, decide_eq_true_eq,
      if_neg fun hleast => hodd hleast.1]
    omega

/-- What the basin of a double holds is rounded to that double. -/
theorem Basin.nearestUnits_of_holds (haligned : Aligned units) (hpos : 0 < units) (hd : 0 < d)
    (h : (Basin.ofUnits units).holds (4 * n) d) : nearestUnits n d = units := by
  obtain ⟨m, e, rfl, hlog, hm, htop, hbottom⟩ := haligned.exists_significand hpos
  obtain ⟨hlow, hhigh, hends⟩ := (Basin.holds_iff hlog hm).mp h
  have hD : 0 < d * 2 ^ e := Nat.mul_pos hd (Nat.two_pow_pos e)
  have hpower : ∀ k, 2 ^ (k + e) * d = 2 ^ k * (d * 2 ^ e) := by
    intro k
    ring
  have hrounded : IsRounded n (d * 2 ^ e) m := by
    split at hlow <;> constructor <;> omega
  by_cases hplace : e = 0 ∨ 2 ^ (52 + e) * d ≤ n
  · refine nearestUnits_eq_mul hd hrounded hplace ?_
    have hle : (m + 1) * (d * 2 ^ e) ≤ 2 ^ 53 * (d * 2 ^ e) := Nat.mul_le_mul_right _ htop
    rw [Nat.succ_mul] at hle
    rw [hpower]
    omega
  · -- the last place below the least double of an exponent is only half as large
    obtain ⟨hne, hnlow⟩ := not_or.mp hplace
    rw [hpower] at hnlow
    obtain rfl : m = 2 ^ 52 := by
      by_contra hlarge
      have hle : (2 ^ 52 + 1) * (d * 2 ^ e) ≤ m * (d * 2 ^ e) :=
        Nat.mul_le_mul_right _ (by omega)
      rw [Nat.succ_mul] at hle
      have hnear := hrounded.le
      omega
    obtain ⟨e, rfl⟩ := Nat.exists_eq_add_one_of_ne_zero hne
    have hhalf : d * 2 ^ (e + 1) = 2 * (d * 2 ^ e) := by ring
    have hhalfpos : 0 < d * 2 ^ e := Nat.mul_pos hd (Nat.two_pow_pos e)
    rw [if_pos ⟨rfl, Nat.succ_pos e⟩, hhalf] at hlow
    rw [hhalf] at hnlow
    rw [nearestUnits_eq_mul (m := 2 ^ 53) (e := e) hd ⟨?_, ?_, ?_⟩ (.inr ?_) ?_]
    · ring
    · omega
    · omega
    · exact fun _ => rfl
    · rw [Nat.pow_add, Nat.mul_assoc, Nat.mul_comm (2 ^ e)]
      omega
    · rw [Nat.pow_add, Nat.mul_assoc, Nat.mul_comm (2 ^ e)]
      omega

/-- Two points around a double are not both outside its basin if they are near to each other for
their size. -/
theorem Basin.holds_either {below above : Nat} (haligned : Aligned units) (hpos : 0 < units)
    (hd : 0 < d) (hbelow : below ≤ 4 * units * d) (habove : 4 * units * d < above)
    (hfine : (above - below) * 10 ^ 16 ≤ 4 * units * d) :
    (Basin.ofUnits units).holds below d ∨ (Basin.ofUnits units).holds above d := by
  obtain ⟨m, e, rfl, hlog, hm, htop, hbottom⟩ := haligned.exists_significand hpos
  have hD : 0 < d * 2 ^ e := Nat.mul_pos hd (Nat.two_pow_pos e)
  have hvalue : 4 * (m * 2 ^ e) * d = 4 * (m * (d * 2 ^ e)) := by ring
  rw [hvalue] at hbelow habove hfine
  rw [Basin.holds_iff hlog hm, Basin.holds_iff hlog hm]
  generalize d * 2 ^ e = D at *
  have hfew : m * D ≤ (2 ^ 53 - 1) * D := Nat.mul_le_mul_right D (by omega)
  -- half a last place above and half a step below are more than a sixteenth digit can miss
  by_cases hleast : m = 2 ^ 52 ∧ 0 < e
  · rw [if_pos hleast]
    obtain ⟨rfl, -⟩ := hleast
    omega
  · rw [if_neg hleast]
    omega

end Basin

def units (decimal : Decimal) : Nat :=
  nearestUnits (decimal.digits * (unitsPerOne * Nat.pow 10 decimal.exponent.toNat))
    (Nat.pow 10 (-decimal.exponent).toNat)

section Units

variable {digits : Nat} {exponent : Int}

theorem pow_ten_pos (n : Nat) : 0 < Nat.pow 10 n := Nat.pow_pos (by decide)

theorem units_zeros (digits zeros : Nat) (exponent : Int) :
    units ⟨digits * Nat.pow 10 zeros, exponent - zeros⟩ = units ⟨digits, exponent⟩ := by
  refine nearestUnits_congr (pow_ten_pos _) (pow_ten_pos _) ?_
  have hplaces : zeros + (exponent - zeros).toNat + (-exponent).toNat =
      exponent.toNat + (-(exponent - zeros)).toNat := by omega
  have hpower := congrArg (Nat.pow 10) hplaces
  simp only [Nat.pow_eq, Nat.pow_add] at hpower ⊢
  calc
    _ = digits * unitsPerOne * (10 ^ zeros * 10 ^ (exponent - zeros).toNat *
        10 ^ (-exponent).toNat) := by ring
    _ = _ := by
      rw [hpower]
      ring

theorem units_zero (exponent : Int) : units ⟨0, exponent⟩ = 0 := by
  have hone := @nearestUnits_congr (0 * (unitsPerOne * Nat.pow 10 exponent.toNat)) _ 0 1
    (pow_ten_pos (-exponent).toNat) Nat.one_pos (by simp)
  rw [units, hone]
  exact nearestUnits_of_aligned (Nat.dvd_zero _)

theorem digits_pos {decimal : Decimal} (h : 0 < decimal.units) : 0 < decimal.digits := by
  obtain ⟨digits, exponent⟩ := decimal
  rcases Nat.eq_zero_or_pos digits with rfl | hpos
  · rw [units_zero] at h
    exact absurd h (Nat.lt_irrefl 0)
  · exact hpos

end Units

section Search

variable {tie : Tie} {u : Nat}

theorem units_of_onGrid? {exponent : Int} {digits : Nat} (haligned : Aligned u) (hpos : 0 < u)
    (h : onGrid? tie (.ofUnits u) exponent = some digits) : units ⟨digits, exponent⟩ = u := by
  have hholds : (Basin.ofUnits u).holds
      (digits * (4 * unitsPerOne * Nat.pow 10 exponent.toNat)) (Nat.pow 10 (-exponent).toNat) := by
    unfold onGrid? at h
    dsimp only at h
    generalize (Basin.ofUnits u).value * Nat.pow 10 (-exponent).toNat /
      (4 * unitsPerOne * Nat.pow 10 exponent.toNat) = below at h
    split at h
    · cases h
    · cases h
      assumption
    · cases h
      assumption
    · have hneighbour : digits = below ∨ digits = below + 1 := by
        repeat' split at h
        all_goals cases h
        all_goals simp
      rcases hneighbour with rfl | rfl <;> assumption
  have hfour : digits * (4 * unitsPerOne * Nat.pow 10 exponent.toNat) =
      4 * (digits * (unitsPerOne * Nat.pow 10 exponent.toNat)) := by ring
  rw [hfour] at hholds
  exact Basin.nearestUnits_of_holds haligned hpos (pow_ten_pos _) hholds

theorem units_search (haligned : Aligned u) (hpos : 0 < u) : ∀ fuel exponent,
    (∃ back : Nat, back < fuel ∧ (onGrid? tie (.ofUnits u) (exponent - back)).isSome) →
    units (search tie (.ofUnits u) fuel exponent) = u
  | 0, _, ⟨_, hback, _⟩ => absurd hback (Nat.not_lt_zero _)
  | fuel + 1, exponent, ⟨back, hback, hfound⟩ => by
      unfold search
      split
      · rename_i digits hdigits
        have hunits := units_of_onGrid? haligned hpos hdigits
        split
        · rename_i hten
          have hzeros := units_zeros 1 1 (exponent + 1)
          rw [Int.natCast_one, Int.add_sub_cancel] at hzeros
          rw [← hzeros, ← hunits, hten]
        · exact hunits
      · rename_i hmissed
        cases back with
        | zero =>
            rw [Int.natCast_zero, Int.sub_zero, hmissed] at hfound
            cases hfound
        | succ back =>
            refine units_search haligned hpos fuel (exponent - 1) ⟨back, by omega, ?_⟩
            have hexponent : exponent - 1 - back = exponent - (back + 1 : Nat) := by omega
            rw [hexponent]
            exact hfound

theorem lt_pow_digitCount (n : Nat) : n < 10 ^ digitCount n :=
  (Nat.length_repr_le_iff Nat.length_repr_pos).mp (Nat.le_refl _)

theorem pow_digitCount_le {n : Nat} (h : 0 < n) : 10 ^ (digitCount n - 1) ≤ n := by
  by_contra hlt
  by_cases hone : digitCount n - 1 = 0
  · rw [hone] at hlt
    omega
  · have hle := (Nat.length_repr_le_iff (Nat.pos_of_ne_zero hone)).mpr (Nat.not_le.mp hlt)
    have hcount : 0 < digitCount n := Nat.length_repr_pos
    rw [← digitCount] at hle
    omega

theorem leadingExponent_le (hpos : 0 < u) :
    unitsPerOne * 10 ^ (leadingExponent u).toNat ≤ u * 10 ^ (-leadingExponent u).toNat := by
  unfold leadingExponent
  split
  · rename_i hle
    have hcount : 0 < digitCount (u / unitsPerOne) := Nat.length_repr_pos
    have hnat : ((digitCount (u / unitsPerOne) : Int) - 1).toNat =
        digitCount (u / unitsPerOne) - 1 := by omega
    have hneg : (-((digitCount (u / unitsPerOne) : Int) - 1)).toNat = 0 := by omega
    have hlead := pow_digitCount_le (Nat.div_pos hle unitsPerOne_pos)
    rw [hnat, hneg, Nat.pow_zero, Nat.mul_one, Nat.mul_comm]
    exact (Nat.le_div_iff_mul_le unitsPerOne_pos).mp hlead
  · rename_i hlt
    have hnat : (-(digitCount ((unitsPerOne - 1) / u) : Int)).toNat = 0 := by omega
    have hneg : (- -(digitCount ((unitsPerOne - 1) / u) : Int)).toNat =
        digitCount ((unitsPerOne - 1) / u) := by omega
    have hlead := (Nat.div_lt_iff_lt_mul hpos).mp (lt_pow_digitCount ((unitsPerOne - 1) / u))
    rw [hnat, hneg, Nat.pow_zero, Nat.mul_one, Nat.mul_comm]
    omega

theorem onGrid?_isSome {exponent : Int} (haligned : Aligned u) (hpos : 0 < u)
    (hfine : unitsPerOne * 10 ^ exponent.toNat * 10 ^ 16 ≤ u * 10 ^ (-exponent).toNat) :
    (onGrid? tie (.ofUnits u) exponent).isSome := by
  have hscale : 0 < Nat.pow 10 (-exponent).toNat := pow_ten_pos _
  have hstep : 0 < 4 * unitsPerOne * Nat.pow 10 exponent.toNat :=
    Nat.mul_pos (Nat.mul_pos (by decide) unitsPerOne_pos) (pow_ten_pos _)
  have hfine : 4 * unitsPerOne * Nat.pow 10 exponent.toNat * 10 ^ 16 ≤
      4 * u * Nat.pow 10 (-exponent).toNat := by
    rw [Nat.mul_assoc 4 u, Nat.mul_assoc 4, Nat.mul_assoc 4]
    exact Nat.mul_le_mul_left 4 hfine
  unfold onGrid?
  dsimp only
  have hvalue : (Basin.ofUnits u).value = 4 * u := rfl
  rw [hvalue]
  generalize Nat.pow 10 (-exponent).toNat = scale at *
  generalize 4 * unitsPerOne * Nat.pow 10 exponent.toNat = step at *
  have hbelow : 4 * u * scale / step * step ≤ 4 * u * scale := Nat.div_mul_le_self ..
  have habove : 4 * u * scale < (4 * u * scale / step + 1) * step := by
    rw [Nat.mul_comm _ step]
    exact Nat.lt_mul_div_succ _ hstep
  have hdifference : (4 * u * scale / step + 1) * step - 4 * u * scale / step * step = step := by
    rw [Nat.succ_mul, Nat.add_sub_cancel_left]
  have heither := Basin.holds_either haligned hpos hscale hbelow habove (by rwa [hdifference])
  split
  · rename_i hfirst hsecond
    rw [hfirst, hsecond] at heither
    simp at heither
  · rfl
  · rfl
  · repeat' split
    all_goals rfl

/-- The shortest digits of a double read back. -/
theorem units_shortest (tie : Tie) (haligned : Aligned u) (hpos : 0 < u) :
    (shortest tie u).units = u := by
  refine units_search haligned hpos 17 _ ⟨16, by decide, ?_⟩
  refine onGrid?_isSome haligned hpos ?_
  have hlead := leadingExponent_le hpos
  generalize leadingExponent u = leading at hlead
  have hplaces : (leading - (16 : Nat)).toNat + 16 + (-leading).toNat =
      leading.toNat + (-(leading - (16 : Nat))).toNat := by omega
  have hpower := congrArg (10 ^ ·) hplaces
  simp only [Nat.pow_add] at hpower
  refine Nat.le_of_mul_le_mul_right (c := 10 ^ (-leading).toNat) ?_ (Nat.pow_pos (by decide))
  calc
    _ = unitsPerOne * (10 ^ (leading - (16 : Nat)).toNat * 10 ^ 16 * 10 ^ (-leading).toNat) := by
      ring
    _ = unitsPerOne * 10 ^ leading.toNat * 10 ^ (-(leading - (16 : Nat))).toNat := by
      rw [hpower, Nat.mul_assoc]
    _ ≤ u * 10 ^ (-leading).toNat * 10 ^ (-(leading - (16 : Nat))).toNat :=
      Nat.mul_le_mul_right _ hlead
    _ = _ := Nat.mul_right_comm ..

end Search

end Decimal

end Scriptlet
