import Scriptlet.Double

/-! The fewest decimal digits that read back as a given double, and of those the nearest.
For each number of digits only the two neighbours of the value on that decimal grid are
tried, in exact arithmetic: if any point of the grid reads back, one of the two does. -/

namespace Scriptlet

/-- The positive number `digits · 10 ^ exponent`. -/
structure Decimal where
  digits : Nat
  exponent : Int
deriving DecidableEq, Repr

namespace Decimal

inductive Tie where
  | even
  | up
deriving DecidableEq

/-- The numbers that round to one double, in quarters of a unit. -/
structure Basin where
  low : Nat
  value : Nat
  high : Nat
  closed : Bool

/-- Half a step reaches down to the double below, which is only half as far away when
`units` is the least number with its exponent. -/
def Basin.ofUnits (units : Nat) : Basin :=
  let step := 1 <<< (units.log2 - 52)
  let below := if units = step <<< 52 ∧ 1 < step then step else 2 * step
  ⟨4 * units - below, 4 * units, 4 * units + 2 * step, units / step % 2 = 0⟩

def Basin.holds (basin : Basin) (n d : Nat) : Bool :=
  if basin.closed then basin.low * d ≤ n && n ≤ basin.high * d
  else basin.low * d < n && n < basin.high * d

def digitCount (n : Nat) : Nat := (Nat.repr n).length

def leadingExponent (units : Nat) : Int :=
  if Double.unitsPerOne ≤ units then digitCount (units / Double.unitsPerOne) - 1
  else -(digitCount ((Double.unitsPerOne - 1) / units) : Int)

def onGrid? (tie : Tie) (basin : Basin) (exponent : Int) : Option Nat :=
  let step := 4 * Double.unitsPerOne * Nat.pow 10 exponent.toNat
  let scale := Nat.pow 10 (-exponent).toNat
  let below := basin.value * scale / step
  let above := below + 1
  let rise := basin.value * scale - below * step
  let drop := above * step - basin.value * scale
  match basin.holds (below * step) scale, basin.holds (above * step) scale with
  | false, false => none
  | true, false => some below
  | false, true => some above
  | true, true =>
      if rise < drop then some below
      else if drop < rise then some above
      else match tie with
        | .up => some above
        | .even => if below % 2 = 0 then some below else some above

/-- Tries one digit more while none of the grids so far holds a point that reads back. -/
def search (tie : Tie) (basin : Basin) : Nat → Int → Decimal
  | 0, exponent => ⟨basin.value * Nat.pow 10 (-exponent).toNat
      / (4 * Double.unitsPerOne * Nat.pow 10 exponent.toNat), exponent⟩
  | more + 1, exponent =>
      match onGrid? tie basin exponent with
      | some digits => if digits = 10 then ⟨1, exponent + 1⟩ else ⟨digits, exponent⟩
      | none => search tie basin more (exponent - 1)

/-- Seventeen digits always suffice. -/
def shortest (tie : Tie) (units : Nat) : Decimal :=
  search tie (.ofUnits units) 17 (leadingExponent units)

end Decimal

end Scriptlet
