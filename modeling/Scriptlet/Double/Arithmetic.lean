import Scriptlet.Double

/-! Rounding a quotient to the nearest double, a tie going to the even neighbour, and the
arithmetic, comparison and conversion that rest on it: each operation takes the exact result
as a quotient of natural numbers and rounds once. -/

namespace Scriptlet

/-- The nearest integer to `n / d`; halfway, the even one. -/
def roundHalfEven (n d : Nat) : Nat :=
  let q := n / d
  let twice := 2 * (n % d)
  if twice < d then q
  else if d < twice then q + 1
  else if q % 2 = 0 then q else q + 1

theorem roundHalfEven_le (n d : Nat) : roundHalfEven n d ≤ n / d + 1 := by
  unfold roundHalfEven
  dsimp only
  repeat' split
  all_goals omega

namespace Double

theorem roundHalfEven_le_shift (n d : Nat) :
    roundHalfEven n (d <<< ((n / d).log2 - 52)) ≤ 1 <<< 53 := by
  refine Nat.le_trans (roundHalfEven_le _ _) ?_
  have hq : n / d < 2 ^ (53 + ((n / d).log2 - 52)) :=
    Nat.lt_of_lt_of_le Nat.lt_log2_self (Nat.pow_le_pow_right Nat.two_pos (by omega))
  rw [Nat.shiftLeft_eq d, ← Nat.div_div_eq_div_mul]
  have hs : n / d / 2 ^ ((n / d).log2 - 52) < 2 ^ 53 :=
    Nat.div_lt_of_lt_mul (by rwa [← Nat.pow_add, Nat.add_comm])
  exact hs

def nearest (negative : Bool) (n d : Nat) : Double :=
  let exponent := (n / d).log2 - 52
  let significand := roundHalfEven n (d <<< exponent)
  if h : significand <<< exponent < limit then
    .finite negative (significand <<< exponent)
      (representable_shift (roundHalfEven_le_shift n d) h)
  else .infinite negative

def ofInt (n : Int) : Double :=
  nearest (n < 0) (n.natAbs * unitsPerOne) 1

/-- The number written with `digits`, the last `places` of them after the point. -/
def ofDecimal (digits places : Nat) : Double :=
  nearest false (digits * unitsPerOne) (Nat.pow 10 places)

def neg : Double → Double
  | .nan => .nan
  | .infinite negative => .infinite !negative
  | .finite negative units h => .finite (!negative) units h

/-- A sum that is exactly zero is positive unless both terms are negative zeros. -/
def add : Double → Double → Double
  | .nan, _ | _, .nan => .nan
  | .infinite s, .infinite t => if s = t then .infinite s else .nan
  | .infinite s, .finite .. => .infinite s
  | .finite .., .infinite t => .infinite t
  | .finite s a _, .finite t b _ =>
      let sum : Int := (if s then -(a : Int) else a) + (if t then -(b : Int) else b)
      if sum = 0 then zero (s && t) else nearest (sum < 0) sum.natAbs 1

def sub (x y : Double) : Double := add x (neg y)

def mul : Double → Double → Double
  | .nan, _ | _, .nan => .nan
  | .infinite s, .infinite t => .infinite (s != t)
  | .infinite s, .finite t b _ => if b = 0 then .nan else .infinite (s != t)
  | .finite s a _, .infinite t => if a = 0 then .nan else .infinite (s != t)
  | .finite s a _, .finite t b _ => nearest (s != t) (a * b) unitsPerOne

def div : Double → Double → Double
  | .nan, _ | _, .nan => .nan
  | .infinite _, .infinite _ => .nan
  | .infinite s, .finite t .. => .infinite (s != t)
  | .finite s .., .infinite t => zero (s != t)
  | .finite s a _, .finite t b _ =>
      if b = 0 then
        if a = 0 then .nan else .infinite (s != t)
      else nearest (s != t) (a * unitsPerOne) b

/-- Compares the exact values; no comparison with a `nan` holds. -/
def compareBy (holds : Int → Int → Bool) (x y : Double) : Bool :=
  match x.signedUnits?, y.signedUnits? with
  | some a, some b => holds a b
  | _, _ => false

def beq : Double → Double → Bool := compareBy (· == ·)

def lt : Double → Double → Bool := compareBy fun a b => decide (a < b)

def le : Double → Double → Bool := compareBy fun a b => decide (a ≤ b)

end Double

end Scriptlet
