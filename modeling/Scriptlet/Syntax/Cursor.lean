import Scriptlet.Diagnostic
import Scriptlet.Token

/-! Moving through a list of tokens. A cursor knows what is left of the list, the token just
passed and the number of the next function without a name; it never moves past the token that
ends the list. -/

namespace Scriptlet

inductive Expected where
  | parametersOpen
  | parameterName
  | parametersClose
  | typeParametersOpen
  | typeParametersClose
  | typeName
  | bindingName
  | blockOpen
  | blockClose
  | argumentsClose
  | groupClose
  | expression
deriving DecidableEq, Repr

namespace Expected

def text : Expected → String
  | parametersOpen => "'(' before parameters"
  | parameterName => "parameter name"
  | parametersClose => "')' after parameters"
  | typeParametersOpen => "'(' after 'fn' in type"
  | typeParametersClose => "')' after parameter types"
  | typeName => "type name"
  | bindingName => "variable name after 'let'"
  | blockOpen => "'\x7b' before block"
  | blockClose => "'\x7d' after block"
  | argumentsClose => "')' after arguments"
  | groupClose => "')' after expression"
  | expression => "expression"

end Expected

inductive Found where
  | endOfInput
  | lexeme (text : String)
deriving DecidableEq, Repr

namespace Found

def text : Found → String
  | endOfInput => "end of input"
  | lexeme text => s!"'{text}'"

end Found

inductive ParseFault where
  | expected (what : Expected) (found : Found)
  | expectedElse (found : String)
  | invalidTarget
  | tooManyParameters
  | tooManyArguments
  | malformedNumber
  | malformedString
  | exhausted
deriving DecidableEq, Repr

namespace ParseFault

def message : ParseFault → String
  | expected what found => s!"expected {what.text}, found {found.text}"
  | expectedElse found => s!"expected 'if' or block after 'else', found '{found}'"
  | invalidTarget => "invalid assignment target"
  | tooManyParameters => "can't have more than 255 parameters"
  | tooManyArguments => "can't have more than 255 arguments"
  | malformedNumber => "malformed number literal"
  | malformedString => "malformed string literal"
  | exhausted => "program nested too deeply"

end ParseFault

structure ParseError where
  fault : ParseFault
  span : Span
deriving DecidableEq, Repr

def ParseError.diagnostic (e : ParseError) : Diagnostic := ⟨.parse, e.fault.message, e.span⟩

structure Cursor where
  rest : List Token
  finish : Token
  passed : Span
  unnamed : Nat

namespace Cursor

/-- Where a list ends that does not say so itself. -/
def finishOf (tokens : List Token) : Token :=
  match tokens.getLast? with
  | some last => .endOfInput ⟨last.span.stop, 0, last.span.line⟩
  | none => .endOfInput ⟨0, 0, 1⟩

/-- Only what stands before the first end of input counts. -/
def ofTokens (tokens : List Token) (unnamed : Nat) : Cursor :=
  let finish := (tokens.find? (·.kind == .endOfInput)).getD (finishOf tokens)
  ⟨tokens.takeWhile (·.kind != .endOfInput), finish, finish.span, unnamed⟩

def peek (cursor : Cursor) : Token := cursor.rest.head?.getD cursor.finish

end Cursor

/-- A step that moves a cursor and may fail; after a failure the cursor stays where it is. -/
abbrev Parse := EStateM ParseError Cursor

namespace Parse

def peek : Parse Token := fun cursor => .ok cursor.peek cursor

def failAt {α : Type} (fault : ParseFault) (span : Span) : Parse α :=
  throw ⟨fault, span⟩

def advance : Parse Token := fun cursor =>
  match cursor.rest with
  | [] => .ok cursor.finish cursor
  | token :: rest => .ok token { cursor with rest := rest, passed := token.span }

def exhausted {α : Type} : Parse α := do failAt .exhausted (← peek).span

/-- From the start of `first` through the end of the token just passed. -/
def spanFrom (first : Span) : Parse Span := fun cursor =>
  .ok (first.upTo cursor.passed) cursor

def accept (kind : Kind) : Parse Bool := do
  if (← peek).kind = kind then
    let _ ← advance
    return true
  return false

def found (token : Token) : Found :=
  if token.kind = .endOfInput then .endOfInput else .lexeme token.lexeme

/-- Passes a token of the kind, and fails at the next token if it is of another. -/
def expect (kind : Kind) (what : Expected) : Parse Token := do
  let token ← peek
  if token.kind = kind then advance
  else
    failAt (.expected what (found token))
      ⟨token.span.offset, max token.span.len 1, token.span.line⟩

def expectName (what : Expected) : Parse String := do
  return (← expect .identifier what).lexeme

/-- The name of a function that has none; no identifier is spelled like it. -/
def unnamedFunction (number : Nat) : String := s!"<fn#{number}>"

def freshName : Parse String := fun cursor =>
  .ok (unnamedFunction cursor.unnamed) { cursor with unnamed := cursor.unnamed + 1 }

/-- One item and, after each comma, another one; `full` takes over when there is no room. -/
def separated {α : Type} (full : Parse (List α)) (item : Parse α) : Nat → Parse (List α)
  | 0 => full
  | room + 1 => do
      let first ← item
      if ← accept .comma then return first :: (← separated full item room)
      return [first]

/-- No items if the next token closes the list, and otherwise at least one. -/
def separatedUntil {α : Type} (close : Kind) (full : Parse (List α)) (item : Parse α)
    (room : Nat) : Parse (List α) := do
  if (← peek).kind = close then return []
  separated full item room

def many {α : Type} (ends : Kind → Bool) (item : Parse α) : Nat → Parse (List α)
  | 0 => exhausted
  | fuel + 1 => do
      if ends (← peek).kind then return []
      let first ← item
      return first :: (← many ends item fuel)

end Parse

end Scriptlet
