import Mathlib.Tactic.Linarith
import Mathlib.Tactic.Ring
import Scriptlet.Double.Arithmetic

/-! Rounding to the nearest double. No number with 53 significant bits is nearer to a quotient than
the one that it is rounded to, and of two that are equally near the even one is taken. -/

namespace Scriptlet

/-- The nearest integer to `n / d`, and halfway the even one. -/
structure IsRounded (n d rounded : Nat) : Prop where
  le : 2 * (rounded * d) ≤ 2 * n + d
  ge : 2 * n ≤ 2 * (rounded * d) + d
  even : 2 * (rounded * d) = 2 * n + d ∨ 2 * n = 2 * (rounded * d) + d → rounded % 2 = 0

section IsRounded

variable {n d first second : Nat}

theorem roundHalfEven_isRounded (hd : 0 < d) (n : Nat) : IsRounded n d (roundHalfEven n d) := by
  have hn := Nat.div_add_mod' n d
  have hr := Nat.mod_lt n hd
  unfold roundHalfEven
  dsimp only
  generalize n / d = q at hn ⊢
  generalize n % d = r at hn hr ⊢
  have hsucc : (q + 1) * d = q * d + d := Nat.succ_mul q d
  split
  · constructor <;> omega
  · split
    · constructor <;> omega
    · split <;> constructor <;> omega

theorem IsRounded.le_of (hd : 0 < d) (h : IsRounded n d first) (h' : IsRounded n d second) :
    first ≤ second := by
  by_contra hlt
  -- the two can only be neighbours, and then both of them are halfway
  have hle : (first - 1) * d ≤ second * d := by
    have hsub : first * d = (first - 1) * d + d := by
      rw [← Nat.succ_mul]
      congr 1
      omega
    have := h.le
    have := h'.ge
    omega
  have hpred : first - 1 ≤ second := Nat.le_of_mul_le_mul_right hle hd
  obtain rfl : first = second + 1 := by omega
  have hsucc : (second + 1) * d = second * d + d := Nat.succ_mul second d
  have hfirst := h.even (.inl (by have := h.le; have := h'.ge; omega))
  have hsecond := h'.even (.inr (by have := h.le; have := h'.ge; omega))
  omega

theorem IsRounded.nearest (hd : 0 < d) (h : IsRounded n d first) (other : Nat) :
    (first * d - n) + (n - first * d) ≤ (other * d - n) + (n - other * d) ∧
      ((other * d - n) + (n - other * d) = (first * d - n) + (n - first * d) → other ≠ first →
        first % 2 = 0) := by
  obtain ⟨hle, hge, heven⟩ := h
  rcases Nat.lt_trichotomy other first with hlt | rfl | hlt
  · have hstep : other * d + d ≤ first * d := by
      rw [← Nat.succ_mul]
      exact Nat.mul_le_mul_right d hlt
    exact ⟨by omega, fun htie _ => heven (.inl (by omega))⟩
  · exact ⟨Nat.le_refl _, fun _ hne => absurd rfl hne⟩
  · have hstep : first * d + d ≤ other * d := by
      rw [← Nat.succ_mul]
      exact Nat.mul_le_mul_right d hlt
    exact ⟨by omega, fun htie _ => heven (.inr (by omega))⟩

theorem IsRounded.le_of_mul_le {k : Nat} (hd : 0 < d) (h : IsRounded n d first) (hk : k * d ≤ n) :
    k ≤ first := by
  have hge := h.ge
  have hle : k * d < (first + 1) * d := by
    rw [Nat.succ_mul]
    omega
  exact Nat.le_of_lt_succ (Nat.lt_of_mul_lt_mul_right hle)

theorem IsRounded.unique (hd : 0 < d) (h : IsRounded n d first) (h' : IsRounded n d second) :
    first = second :=
  Nat.le_antisymm (h.le_of hd h') (h'.le_of hd h)

end IsRounded

namespace Double

theorem unitsPerOne_pos : 0 < unitsPerOne := by
  have hpos : ∀ places, 0 < 1 <<< places := fun places => by
    rw [Nat.one_shiftLeft]
    exact Nat.two_pow_pos places
  exact hpos 1074

theorem mul_unitsPerOne (m : Nat) : m * unitsPerOne = m <<< 1074 := by
  rw [unitsPerOne, Nat.one_shiftLeft, Nat.shiftLeft_eq]

def Aligned (units : Nat) : Prop := 1 <<< (units.log2 - 52) ∣ units

def significand (units : Nat) : Nat := units / 1 <<< (units.log2 - 52)

/-- How far so many units are from `n / d`, in parts of `d`. -/
def distance (n d units : Nat) : Nat := (units * d - n) + (n - units * d)

/-- Of all numbers with 53 bits none is nearer to `n / d` units, and if another one is as near then
this one is even. -/
structure Nearest (n d units : Nat) : Prop where
  aligned : Aligned units
  least : ∀ other, Aligned other → distance n d units ≤ distance n d other
  even : ∀ other, Aligned other → other ≠ units → distance n d other = distance n d units →
    significand units % 2 = 0

/-- What `nearest` rounds to before it looks whether that is too large. -/
def nearestUnits (n d : Nat) : Nat :=
  roundHalfEven n (d <<< ((n / d).log2 - 52)) <<< ((n / d).log2 - 52)

theorem significand_shift {m e : Nat} (hm : m < 1 <<< 53) (he : e = 0 ∨ 1 <<< 52 ≤ m) :
    significand (m <<< e) = m := by
  simp only [Nat.shiftLeft_eq, Nat.one_mul, significand] at *
  have hlog : (m * 2 ^ e).log2 - 52 = e := by
    rcases he with rfl | hle
    · by_cases hz : m = 0
      · simp [hz]
      · have hlt : m.log2 < 53 := (Nat.log2_lt hz).mpr hm
        simp only [Nat.pow_zero, Nat.mul_one]
        omega
    · have hpos := Nat.two_pow_pos e
      have hne : m * 2 ^ e ≠ 0 := Nat.mul_ne_zero (by omega) (by omega)
      have hlog : (m * 2 ^ e).log2 = 52 + e := by
        rw [Nat.log2_eq_iff hne, Nat.pow_add, Nat.add_right_comm, Nat.pow_add]
        exact ⟨Nat.mul_le_mul_right _ hle, Nat.mul_lt_mul_of_pos_right hm hpos⟩
      omega
  rw [hlog, Nat.mul_div_cancel _ (Nat.two_pow_pos e)]

theorem significand_even {m e : Nat} (hm : m ≤ 2 ^ 53) (he : e = 0 ∨ 2 ^ 52 ≤ m)
    (heven : m % 2 = 0) : significand (m * 2 ^ e) % 2 = 0 := by
  rw [← Nat.shiftLeft_eq]
  by_cases htop : m = 2 ^ 53
  · have hshift : m <<< e = 2 ^ 52 <<< (e + 1) := by
      subst htop
      rw [Nat.shiftLeft_eq, Nat.shiftLeft_eq]
      ring
    rw [hshift, significand_shift (by decide) (.inr (by decide))]
    decide
  · have hlt : m < 1 <<< 53 := Nat.lt_of_le_of_ne hm htop
    rw [significand_shift hlt he]
    exact heven

theorem Aligned.lt_of_not_dvd {units e : Nat} (h : Aligned units) (hdvd : ¬1 <<< e ∣ units) :
    units < 1 <<< (52 + e) := by
  by_contra hle
  rw [Nat.not_lt, Nat.one_shiftLeft] at hle
  have hne : units ≠ 0 := by
    rintro rfl
    exact hdvd (Nat.dvd_zero _)
  have hlog : 52 + e ≤ units.log2 := (Nat.le_log2 hne).mpr hle
  rw [Aligned, Nat.one_shiftLeft] at h
  rw [Nat.one_shiftLeft] at hdvd
  exact hdvd (Nat.dvd_trans (Nat.pow_dvd_pow 2 (by omega)) h)

section Nearest

variable {n d : Nat}

theorem isRounded_nearestUnits (hd : 0 < d) : ∃ m e, nearestUnits n d = m * 2 ^ e ∧
    IsRounded n (d * 2 ^ e) m ∧ m ≤ 2 ^ 53 ∧ (e = 0 ∨ 2 ^ (52 + e) * d ≤ n) ∧
      n < 2 ^ (53 + e) * d := by
  let e := (n / d).log2 - 52
  refine ⟨roundHalfEven n (d * 2 ^ e), e, ?_, ?_, ?_, ?_, ?_⟩
  · simp only [nearestUnits, Nat.shiftLeft_eq, e]
  · exact roundHalfEven_isRounded (Nat.mul_pos hd (Nat.two_pow_pos e)) n
  · have hle := roundHalfEven_le_shift n d
    simp only [Nat.shiftLeft_eq, Nat.one_mul] at hle
    exact hle
  · by_cases hlog : (n / d).log2 < 53
    · exact .inl (by omega)
    · have hne : n / d ≠ 0 := by
        intro hz
        simp [hz] at hlog
      have hle : 2 ^ (52 + e) ≤ n / d := (Nat.le_log2 hne).mp (by omega)
      exact .inr ((Nat.le_div_iff_mul_le hd).mp hle)
  · have hlt : n / d < 2 ^ (53 + e) :=
      Nat.lt_of_lt_of_le Nat.lt_log2_self (Nat.pow_le_pow_right Nat.two_pos (by omega))
    exact (Nat.div_lt_iff_lt_mul hd).mp hlt

theorem nearestUnits_nearest (hd : 0 < d) : Nearest n d (nearestUnits n d) := by
  obtain ⟨m, e, hunits, hrounded, hm, hlow, hhigh⟩ := @isRounded_nearestUnits n d hd
  have hD : 0 < d * 2 ^ e := Nat.mul_pos hd (Nat.two_pow_pos e)
  have hmul : ∀ k, distance n d (k * 2 ^ e) = (k * (d * 2 ^ e) - n) + (n - k * (d * 2 ^ e)) := by
    intro k
    have hcomm : k * 2 ^ e * d = k * (d * 2 ^ e) := by ring
    rw [distance, hcomm]
  -- what is between the multiples of the last place lies below all of them
  have hother : ∀ other, Aligned other → (∃ k, other = k * 2 ^ e) ∨
      distance n d (m * 2 ^ e) < distance n d other := by
    intro other haligned
    by_cases hdvd : 1 <<< e ∣ other
    · obtain ⟨k, rfl⟩ := hdvd
      exact .inl ⟨k, by rw [Nat.one_shiftLeft, Nat.mul_comm]⟩
    · right
      have hlt := haligned.lt_of_not_dvd hdvd
      rw [Nat.one_shiftLeft, Nat.pow_add] at hlt
      have hle : 2 ^ 52 * 2 ^ e * d ≤ n := by
        rcases hlow with rfl | hle
        · exact absurd (Nat.one_dvd other) hdvd
        · rwa [Nat.pow_add] at hle
      have hnear := (hrounded.nearest hD (2 ^ 52)).1
      rw [← hmul, ← hmul] at hnear
      refine Nat.lt_of_le_of_lt hnear ?_
      have hprod := Nat.mul_lt_mul_of_pos_right hlt hd
      unfold distance
      omega
  rw [hunits]
  refine ⟨?_, fun other haligned => ?_, fun other haligned hne htie => ?_⟩
  · rw [← Nat.shiftLeft_eq]
    exact aligned_shift hm e
  · rcases hother other haligned with ⟨k, rfl⟩ | hlt
    · rw [hmul, hmul]
      exact (hrounded.nearest hD k).1
    · exact Nat.le_of_lt hlt
  · rcases hother other haligned with ⟨k, rfl⟩ | hlt
    · rw [hmul, hmul] at htie
      have heven := (hrounded.nearest hD k).2 htie (fun hk => hne (by rw [hk]))
      refine significand_even hm (hlow.imp_right fun hle => ?_) heven
      refine hrounded.le_of_mul_le hD ?_
      rwa [Nat.pow_add, Nat.mul_assoc, Nat.mul_comm (2 ^ e)] at hle
    · omega

theorem nearest_eq (hd : 0 < d) (negative : Bool) : nearest negative n d =
    if h : nearestUnits n d < limit then
      .finite negative (nearestUnits n d) ⟨(nearestUnits_nearest hd).aligned, h⟩
    else .infinite negative := rfl

theorem nearestUnits_of_aligned (h : Aligned n) : nearestUnits n 1 = n := by
  have hleast := (@nearestUnits_nearest n 1 Nat.one_pos).least n h
  unfold distance at hleast
  omega

theorem aligned_nearestUnits (hd : 0 < d) : Aligned (nearestUnits n d) :=
  (nearestUnits_nearest hd).aligned

end Nearest

/-! Numbers with a common factor. -/

theorem roundHalfEven_mul {n d factor : Nat} (hd : 0 < d) (hfactor : 0 < factor) :
    roundHalfEven (n * factor) (d * factor) = roundHalfEven n d := by
  obtain ⟨hle, hge, heven⟩ := roundHalfEven_isRounded hd n
  have hscaled : ∀ k, k * (d * factor) = k * d * factor := fun k => (Nat.mul_assoc ..).symm
  refine (roundHalfEven_isRounded (Nat.mul_pos hd hfactor) (n * factor)).unique
    (Nat.mul_pos hd hfactor) ⟨?_, ?_, fun htie => heven ?_⟩
  · rw [hscaled]
    nlinarith
  · rw [hscaled]
    nlinarith
  · rw [hscaled] at htie
    refine htie.imp (fun htie => ?_) fun htie => ?_
    · exact Nat.eq_of_mul_eq_mul_right hfactor (by linarith)
    · exact Nat.eq_of_mul_eq_mul_right hfactor (by linarith)

theorem log2_shift {n : Nat} (hn : n ≠ 0) (places : Nat) :
    (n <<< places).log2 = n.log2 + places := by
  have hpos := Nat.two_pow_pos places
  have hlow := Nat.mul_le_mul_right (2 ^ places) (Nat.log2_self_le hn)
  have hhigh := Nat.mul_lt_mul_of_pos_right (@Nat.lt_log2_self n) hpos
  rw [Nat.shiftLeft_eq, Nat.log2_eq_iff (Nat.mul_ne_zero hn (Nat.ne_of_gt hpos)),
    Nat.add_right_comm, Nat.pow_add, Nat.pow_add]
  exact ⟨hlow, hhigh⟩

theorem nearestUnits_shift (n places : Nat) :
    nearestUnits (n <<< places) 1 = nearestUnits n 1 <<< places := by
  by_cases hlog : n.log2 < 52
  · have hlt : n < 1 <<< 52 := by
      rw [Nat.one_shiftLeft]
      exact Nat.lt_of_lt_of_le Nat.lt_log2_self (Nat.pow_le_pow_right Nat.two_pos (by omega))
    have haligned : Aligned n := by
      have hzero : n.log2 - 52 = 0 := by omega
      rw [Aligned, hzero]
      exact Nat.one_dvd n
    have hshifted : Aligned (n <<< places) :=
      aligned_shift (Nat.le_trans (Nat.le_of_lt hlt) (by decide)) places
    rw [nearestUnits_of_aligned haligned, nearestUnits_of_aligned hshifted]
  · have hn : n ≠ 0 := by
      rintro rfl
      simp at hlog
    have hplaces : n.log2 + places - 52 = (n.log2 - 52) + places := by omega
    have hround := @roundHalfEven_mul n (1 <<< (n.log2 - 52)) (2 ^ places)
      (by rw [Nat.one_shiftLeft]; exact Nat.two_pow_pos _) (Nat.two_pow_pos _)
    simp only [nearestUnits, Nat.div_one, log2_shift hn, hplaces]
    rw [Nat.shiftLeft_add, Nat.shiftLeft_add, Nat.shiftLeft_eq n, Nat.shiftLeft_eq (1 <<< _),
      hround]

end Double

end Scriptlet
