import Scriptlet.Token.Lexeme
import Scriptlet.Diagnostic

/-! Reading a source text as tokens. Between tokens stand blanks and comments; where neither
a gap nor a lexeme begins, reading stops with an error. -/

namespace Scriptlet

inductive LexFault where
  | unterminatedString
  | loneSemicolon
  | unexpected (c : Char)
deriving DecidableEq, Repr

structure LexError where
  fault : LexFault
  span : Span
  column : Nat
deriving DecidableEq, Repr

namespace LexFault

def message : LexFault → String
  | unterminatedString => "unterminated string"
  | loneSemicolon => "unexpected ';' (line comments start with ';;')"
  | unexpected c => s!"unexpected character '{c}'"

end LexFault

namespace LexError

/-- The error for text that begins with no lexeme. A string that does not end takes up all
that is left. -/
def atHead (place : Position) (c : Char) (rest : List Char) : LexError :=
  if c = '"' then
    ⟨.unterminatedString, place.spanOf (byteLength (c :: rest)), place.column⟩
  else if c = ';' then ⟨.loneSemicolon, place.spanOf 1, place.column⟩
  else ⟨.unexpected c, place.spanOf c.utf8Size, place.column⟩

def diagnostic (e : LexError) : Diagnostic := ⟨.lex e.column, e.fault.message, e.span⟩

end LexError

def isBlank (c : Char) : Bool := c == ' ' || c == '\t' || c == '\r' || c == '\n'

/-- Whether `c`, with `rest` after it, belongs to the gap between tokens, and if so whether
a comment goes on behind it. A comment ends before the next line feed. -/
def gapStep (inComment : Bool) (c : Char) (rest : List Char) : Option Bool :=
  if inComment then some (c != '\n')
  else if isBlank c then some false
  else if c == ';' && rest.head? == some ';' then some true
  else none

def splitGap (inComment : Bool) : List Char → List Char × List Char
  | [] => ([], [])
  | c :: rest =>
      match gapStep inComment c rest with
      | none => ([], c :: rest)
      | some goesOn =>
          let tail := splitGap goesOn rest
          (c :: tail.1, tail.2)

theorem splitGap_append (inComment : Bool) (source : List Char) :
    (splitGap inComment source).1 ++ (splitGap inComment source).2 = source := by
  induction source generalizing inComment with
  | nil => rfl
  | cons c rest ih =>
      unfold splitGap
      split
      · rfl
      · simp [ih]

theorem splitGap_length (inComment : Bool) (source : List Char) :
    (splitGap inComment source).2.length ≤ source.length := by
  have h := congrArg List.length (splitGap_append inComment source)
  rw [List.length_append] at h
  omega

namespace Lexeme

def toToken (lexeme : Lexeme) (place : Position) : Token :=
  ⟨lexeme.kind, String.ofList lexeme.text, lexeme.payload,
    place.spanOf (byteLength lexeme.text)⟩

end Lexeme

namespace Token

def scanFrom (place : Position) (source : List Char) : Except LexError (List Token) :=
  let gap := splitGap false source
  let start := place.after gap.1
  match hgap : gap.2 with
  | [] => .ok [endOfInput (start.spanOf 0)]
  | c :: rest =>
      match hsplit : Lexeme.split? (c :: rest) with
      | none => .error (LexError.atHead start c rest)
      | some (lexeme, after) =>
          have : after.length < source.length := by
            have hlength := splitGap_length false source
            rw [hgap] at hlength
            exact Nat.lt_of_lt_of_le (Lexeme.split?_shorter hsplit) hlength
          match scanFrom (start.after lexeme.text) after with
          | .ok tokens => .ok (lexeme.toToken start :: tokens)
          | .error e => .error e
termination_by source.length

/-- The tokens of a source text, ended by one that stands for its end. -/
def scan (source : String) : Except LexError (List Token) := scanFrom .start source.toList

end Token

end Scriptlet
