import Scriptlet.CommandLine.LogRule
import Scriptlet.Event

/-! Which events are shown. A filter is a list of rules between commas, and for an event the
most particular of the rules that are meant for it decides. -/

namespace Scriptlet

namespace LogRule

/-- Events happen inside no span, and the values of their fields are not looked at. -/
def appliesTo (rule : LogRule) (event : Event) : Bool :=
  rule.span.isNone && event.target.startsWith rule.target &&
    match rule.field with
    | none => true
    | some (name, none) => event.fields.contains name
    | some (_, some _) => false

/-- Whether a rule is less particular than another: its target is shorter, or as long while it
asks for no field or for one that is earlier in the alphabet. -/
def yieldsTo (rule other : LogRule) : Bool :=
  rule.target.utf8ByteSize < other.target.utf8ByteSize ||
    rule.target.utf8ByteSize = other.target.utf8ByteSize &&
      match rule.field, other.field with
      | none, some _ => true
      | some (name, _), some (otherName, _) => name < otherName
      | _, none => false

end LogRule

structure LogFilter where
  rules : List LogRule
  /-- Rules that could not be read, which are ignored. -/
  malformed : List String

namespace LogFilter

def add (filter : LogFilter) (text : String) : Option LogFilter :=
  match LogRule.parse text with
  | .ok rule => some { filter with rules := filter.rules ++ [rule] }
  | .error .malformed => some { filter with malformed := filter.malformed ++ [text] }
  | .error .torn => none

/-- A filter without rules shows errors. -/
def orErrors (filter : LogFilter) : LogFilter :=
  if filter.rules.isEmpty then
    { filter with rules := [{ LogRule.everything with rank := EventLevel.error.rank }] }
  else filter

def parse? (text : String) : Option LogFilter :=
  orErrors <$> ((text.splitOn ",").filter (!·.isEmpty)).foldlM add ⟨[], []⟩

/-- Without a filter, warnings and errors are shown. -/
def ofOption? (text : Option String) : Option LogFilter := parse? (text.getD "warn")

/-- Of two rules that are as particular as each other the later one counts. -/
def better (best : Option LogRule) (rule : LogRule) : Option LogRule :=
  match best with
  | some old => if rule.yieldsTo old then some old else some rule
  | none => some rule

def shows (filter : LogFilter) (event : Event) : Bool :=
  match (filter.rules.filter fun rule => rule.appliesTo event).foldl better none with
  | some rule => event.level.rank ≤ rule.rank
  | none => false

end LogFilter

end Scriptlet
