import Scriptlet.Double.Arithmetic
import Scriptlet.Decimal.Shortest

/-! How a double is written out. The digits are always the shortest that read back; a layout
says when they are written around a plain point, how an exponent looks otherwise, and which
way a tie between two digit strings goes. -/

namespace Scriptlet

namespace Decimal

/-- The digits and `exponent` zeros around a point, with a digit on both sides of it. -/
def positional (d : Decimal) : String :=
  let digits := Nat.repr d.digits
  match d.exponent with
  | .ofNat zeros => digits ++ "".pushn '0' zeros ++ ".0"
  | .negSucc n =>
      let places := n + 1
      if places < digits.length then
        (digits.take (digits.length - places)).copy ++ "." ++
          (digits.drop (digits.length - places)).copy
      else "0." ++ "".pushn '0' (places - digits.length) ++ digits

def scientificExponent (d : Decimal) : Int :=
  d.exponent + (digitCount d.digits - 1 : Nat)

def scientific (plus : String) (d : Decimal) : String :=
  let digits := Nat.repr d.digits
  let fraction := (digits.drop 1).copy
  let exponent := d.scientificExponent
  (digits.take 1).copy ++ (if fraction.isEmpty then "" else "." ++ fraction) ++ "e" ++
    (if exponent < 0 then "" else plus) ++ toString exponent

/-- The choices that distinguish one written form of a double from another. -/
structure Layout where
  tie : Tie
  isPositional : Int → Bool
  plus : String

def Layout.write (layout : Layout) : Double → String
  | .nan => "NaN"
  | .infinite negative => if negative then "-inf" else "inf"
  | .finite negative units _ =>
      let sign := if negative then "-" else ""
      if units = 0 then sign ++ "0.0"
      else
        let d := shortest layout.tie units
        sign ++ (if layout.isPositional d.scientificExponent then d.positional
          else d.scientific layout.plus)

/-- Number literals: an exponent from 10¹⁶ on and below 10⁻⁴. -/
def Layout.literal : Layout := ⟨.up, fun e => -4 ≤ e && e < 16, ""⟩

/-- Numbers in a data dump: an exponent from 10¹⁶ on and below 10⁻⁵, always signed. -/
def Layout.dump : Layout := ⟨.even, fun e => -5 ≤ e && e < 16, "+"⟩

/-- Printed numbers never have an exponent. -/
def Layout.plain : Layout := ⟨.up, fun _ => true, ""⟩

end Decimal

namespace Double

def literalText (x : Double) : String := Decimal.Layout.literal.write x

/-- The text of a double as a script prints it: whole numbers in full, with one zero after
the point, and the shortest digits otherwise. -/
def valueText (x : Double) : String :=
  match x with
  | .finite negative units _ =>
      if units % unitsPerOne = 0 then
        (if negative then "-" else "") ++ Nat.repr (units / unitsPerOne) ++ ".0"
      else Decimal.Layout.plain.write x
  | _ => Decimal.Layout.plain.write x

def dumpText? (x : Double) : Option String :=
  match x with
  | .finite .. => some (Decimal.Layout.dump.write x)
  | _ => none

end Double

end Scriptlet
