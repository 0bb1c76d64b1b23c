import Scriptlet.Json
import Scriptlet.Proofs.Doubles.Shortest

/-! A reader of structured data. It takes every text that the grammar of RFC 8259 allows, whatever
its blanks and escapes are, and refuses every other text. Of a number it takes the nearest double,
or the integer if it is written as one. What means nothing it refuses too: a number too large
for a double, and one half of a pair of code units. -/

namespace Scriptlet

def Decimal.toDouble (negative : Bool) (decimal : Decimal) : Double :=
  .nearest negative (decimal.digits * (Double.unitsPerOne * Nat.pow 10 decimal.exponent.toNat))
    (Nat.pow 10 (-decimal.exponent).toNat)

namespace Json

def isBlank (c : Char) : Bool := c == ' ' || c == '\n' || c == '\r' || c == '\t'

def skipBlanks (text : List Char) : List Char := text.dropWhile isBlank

/-! Texts between quotes. -/

def hexValue? (c : Char) : Option Nat :=
  if '0' ≤ c ∧ c ≤ '9' then some (c.toNat - '0'.toNat)
  else if 'a' ≤ c ∧ c ≤ 'f' then some (c.toNat - 'a'.toNat + 10)
  else if 'A' ≤ c ∧ c ≤ 'F' then some (c.toNat - 'A'.toNat + 10)
  else none

def codeUnit? : List Char → Option (Nat × List Char)
  | a :: b :: c :: d :: rest => do
      let a ← hexValue? a
      let b ← hexValue? b
      let c ← hexValue? c
      let d ← hexValue? d
      return (16 * (16 * (16 * a + b) + c) + d, rest)
  | _ => none

/-- One code unit, or two of them that are the halves of a pair. A half alone is no character. -/
def codePoint? (text : List Char) : Option (Char × List Char) := do
  let (unit, rest) ← codeUnit? text
  if unit < 0xd800 ∨ 0xe000 ≤ unit then return (Char.ofNat unit, rest)
  else if unit < 0xdc00 then
    match rest with
    | '\\' :: 'u' :: second => do
        let (low, rest) ← codeUnit? second
        if 0xdc00 ≤ low ∧ low < 0xe000 then
          return (Char.ofNat (0x10000 + 0x400 * (unit - 0xd800) + (low - 0xdc00)), rest)
        else none
    | _ => none
  else none

def escaped? : List Char → Option (Char × List Char)
  | '"' :: rest => some ('"', rest)
  | '\\' :: rest => some ('\\', rest)
  | '/' :: rest => some ('/', rest)
  | 'b' :: rest => some ('\x08', rest)
  | 'f' :: rest => some ('\x0c', rest)
  | 'n' :: rest => some ('\n', rest)
  | 'r' :: rest => some ('\r', rest)
  | 't' :: rest => some ('\t', rest)
  | 'u' :: rest => codePoint? rest
  | _ => none

def characters? : Nat → List Char → Option (List Char × List Char)
  | 0, _ | _, [] => none
  | fuel + 1, c :: rest =>
      if c = '"' then some ([], rest)
      else if c = '\\' then do
        let (meant, rest) ← escaped? rest
        (characters? fuel rest).map fun (more, rest) => (meant :: more, rest)
      else if c.toNat < 32 then none
      else (characters? fuel rest).map fun (more, rest) => (c :: more, rest)

def text? (rest : List Char) : Option (String × List Char) :=
  (characters? rest.length rest).map fun (chars, rest) => (String.ofList chars, rest)

/-! Numbers. -/

def fraction? : List Char → Option (List Char × List Char)
  | '.' :: rest =>
      let digits := rest.takeWhile Char.isDigit
      if digits = [] then none else some (digits, rest.dropWhile Char.isDigit)
  | rest => some ([], rest)

def exponentDigits? (negative : Bool) (text : List Char) : Option (Option Int × List Char) :=
  let digits := text.takeWhile Char.isDigit
  let size : Int := Nat.ofDigitChars 10 digits 0
  if digits = [] then none
  else some (some (if negative then -size else size), text.dropWhile Char.isDigit)

def exponent? : List Char → Option (Option Int × List Char)
  | c :: rest =>
      if c = 'e' ∨ c = 'E' then
        match rest with
        | '-' :: rest => exponentDigits? true rest
        | '+' :: rest => exponentDigits? false rest
        | rest => exponentDigits? false rest
      else some (none, c :: rest)
  | [] => some (none, [])

/-- The number with these parts. Only what has a fraction or an exponent is a double, and it must
not be too large for one. -/
def ofParts? (negative : Bool) (whole fraction : List Char) (exponent : Option Int) :
    Option Json :=
  let digits := Nat.ofDigitChars 10 (whole ++ fraction) 0
  if fraction = [] ∧ exponent = none then
    some (.int (if negative then -(digits : Int) else digits))
  else
    match Decimal.toDouble negative ⟨digits, exponent.getD 0 - fraction.length⟩ with
    | .finite sign units h => some (.float (.finite sign units h))
    | _ => none

/-- Whether the digits may stand before a point. A zero is the first of them only if it is alone. -/
def isWhole (digits : List Char) : Bool := digits == ['0'] || digits.head?.any (· != '0')

def unsigned? (negative : Bool) (text : List Char) : Option (Json × List Char) := do
  let whole := text.takeWhile Char.isDigit
  guard (isWhole whole)
  let (fraction, rest) ← fraction? (text.dropWhile Char.isDigit)
  let (exponent, rest) ← exponent? rest
  let number ← ofParts? negative whole fraction exponent
  return (number, rest)

def number? : List Char → Option (Json × List Char)
  | '-' :: rest => unsigned? true rest
  | text => unsigned? false text

/-! Values. -/

def word? : List Char → Option (Json × List Char)
  | 'n' :: 'u' :: 'l' :: 'l' :: rest => some (.null, rest)
  | 't' :: 'r' :: 'u' :: 'e' :: rest => some (.bool true, rest)
  | 'f' :: 'a' :: 'l' :: 's' :: 'e' :: rest => some (.bool false, rest)
  | _ => none

def key? (text : List Char) : Option (String × List Char) :=
  match skipBlanks text with
  | '"' :: rest => do
      let (key, rest) ← text? rest
      match skipBlanks rest with
      | ':' :: rest => some (key, rest)
      | _ => none
  | _ => none

mutual

def value? : Nat → List Char → Option (Json × List Char)
  | 0, _ => none
  | fuel + 1, text =>
      match skipBlanks text with
      | [] => none
      | c :: rest =>
          if c = '"' then (text? rest).map fun (text, rest) => (.string text, rest)
          else if c = '[' then
            if (skipBlanks rest).head? = some ']' then some (.array [], (skipBlanks rest).tail)
            else (items? fuel rest).map fun (items, rest) => (.array items, rest)
          else if c = '\x7b' then
            if (skipBlanks rest).head? = some '\x7d' then some (.object [], (skipBlanks rest).tail)
            else (fields? fuel rest).map fun (fields, rest) => (.object fields, rest)
          else if c.isAlpha then word? (c :: rest)
          else number? (c :: rest)

def items? : Nat → List Char → Option (List Json × List Char)
  | 0, _ => none
  | fuel + 1, text => do
      let (item, rest) ← value? fuel text
      match skipBlanks rest with
      | ',' :: rest => (items? fuel rest).map fun (items, rest) => (item :: items, rest)
      | ']' :: rest => some ([item], rest)
      | _ => none

def fields? : Nat → List Char → Option (List (String × Json) × List Char)
  | 0, _ => none
  | fuel + 1, text => do
      let (key, rest) ← key? text
      let (value, rest) ← value? fuel rest
      match skipBlanks rest with
      | ',' :: rest =>
          (fields? fuel rest).map fun (fields, rest) => ((key, value) :: fields, rest)
      | '\x7d' :: rest => some ([(key, value)], rest)
      | _ => none

end

def read? (text : String) : Option Json := do
  let (data, rest) ← value? (text.length + 1) text.toList
  guard ((skipBlanks rest).isEmpty)
  return data

end Json

end Scriptlet
