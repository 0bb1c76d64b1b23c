import Scriptlet.Span
import Scriptlet.Text.Alphanumeric
import Scriptlet.Text.Whitespace

/-! The rules of a log filter, as they are written: the name of a part of the language, in
brackets a span and one field, and behind `=` a level, each of which may be missing.

A rule is read from its text without the white space at the ends, but its names are cut from
the text as it stands, at the places found in the other. White space in front therefore shifts
every name, and white space behind belongs to the last one. -/

namespace Scriptlet

/-- The rank of the least important events that a level lets through; 0 lets none through. -/
def levelRank? (level : String) : Option Nat :=
  match level.toLower with
  | "off" => some 0
  | "error" => some 1
  | "warn" => some 2
  | "info" => some 3
  | "debug" => some 4
  | "trace" => some 5
  | _ => none

/-- A number from 0 to 5, which may have zeros and one plus sign in front. -/
def smallNumber? (text : String) : Option Nat :=
  let digits := match text.toList with
    | '+' :: rest => rest
    | rest => rest
  if digits.isEmpty || !digits.all Char.isDigit then none
  else
    match digits.dropWhile (· == '0') with
    | [] => some 0
    | [d] => if d ≤ '5' then some (d.toNat - '0'.toNat) else none
    | _ => none

def rankOf? (level : String) : Option Nat := (smallNumber? level).or (levelRank? level)

def lowestRank : Nat := 5

structure LogRule where
  target : String
  span : Option String
  /-- A field that an event must have, with the value that it must have if one is given. -/
  field : Option (String × Option String)
  rank : Nat
deriving DecidableEq, Repr

inductive RuleFault where
  | malformed
  /-- A name would have to be cut in the middle of a character. -/
  | torn
deriving DecidableEq, Repr

namespace LogRule

/-- What is being read, and at which byte it began. -/
inductive Progress where
  | start
  | name (since : Nat)
  | span (since : Nat)
  | field (since : Nat)
  | afterField
  | afterSpan
  | level (since : Nat)
deriving DecidableEq, Repr

def everything : LogRule := ⟨"", none, none, lowestRank⟩

def cut (text : String) (since : Nat) (stop : Option Nat) : Except RuleFault String := do
  let some (_, rest) := splitAtByte? text.toList since | throw .torn
  match stop with
  | none => return String.ofList rest
  | some stop =>
      let some (inside, _) := splitAtByte? rest (stop - since) | throw .torn
      return String.ofList inside

/-- A field, with a value behind the first `=` up to a second one. -/
def fieldOf (text : String) : String × Option String :=
  match text.splitOn "=" with
  | name :: value :: _ => (name, some value)
  | _ => (text, none)

def read (text : String) (state : LogRule × Progress) (placed : Nat × Char) :
    Except RuleFault (LogRule × Progress) := do
  let (rule, progress) := state
  let (place, c) := placed
  match progress with
  | .start =>
      if c = '[' then return (rule, .span (place + 1))
      else if isAlphanumeric c || c = '-' || c = ':' || c = '_' then return (rule, .name place)
      else throw .malformed
  | .name since =>
      if c = '=' then
        return ({ rule with target := ← cut text since (some place) }, .level (place + 1))
      else if c = '[' then
        return ({ rule with target := ← cut text since (some place) }, .span (place + 1))
      else return state
  | .span since =>
      if c = ']' then
        return ({ rule with span := some (← cut text since (some place)) }, .afterSpan)
      else if c = '{' then
        let span ← cut text since (some place)
        return ({ rule with span := if span.isEmpty then none else some span },
          .field (place + 1))
      else return state
  | .field since =>
      if c = '}' then
        let field ← cut text since (some place)
        if field.isEmpty then throw .malformed
        return ({ rule with field := some (fieldOf field) }, .afterField)
      else return state
  | .afterField => if c = ']' then return (rule, .afterSpan) else throw .malformed
  | .afterSpan => if c = '=' then return (rule, .level (place + 1)) else throw .malformed
  | .level _ => return state

/-- Reads the end of the text. A name alone is a level if there is such a level. -/
def finish (text : String) : LogRule × Progress → Except RuleFault LogRule
  | (rule, .name since) => do
      let name ← cut text since none
      match rankOf? name with
      | some rank => return { rule with rank := rank }
      | none => return { rule with target := name }
  | (rule, .level since) => do
      let level ← cut text since none
      if level.isEmpty then return rule
      match rankOf? level with
      | some rank => return { rule with rank := rank }
      | none => throw .malformed
  | (rule, .afterSpan) => return rule
  | _ => throw .malformed

def places : Nat → List Char → List (Nat × Char)
  | _, [] => []
  | place, c :: rest => (place, c) :: places (place + c.utf8Size) rest

def parse (text : String) : Except RuleFault LogRule := do
  finish text (← (places 0 (trim text).toList).foldlM (read text) (everything, .start))

end LogRule

end Scriptlet
