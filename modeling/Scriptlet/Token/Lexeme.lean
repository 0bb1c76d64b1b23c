import Scriptlet.Token

/-! The lexeme at the head of a text. Each function takes the longest lexeme of its class and
gives it back with the text that follows; together they lose nothing. -/

namespace Scriptlet

structure Lexeme where
  kind : Kind
  text : List Char
  payload : Option Payload

namespace Lexeme

def isWordStart (c : Char) : Bool := c.isAlpha || c == '_'

def isWordPart (c : Char) : Bool := c.isAlphanum || c == '_'

def digitsValue (digits : List Char) : Nat :=
  digits.foldl (fun value c => 10 * value + (c.toNat - '0'.toNat)) 0

/-- What stands between the opening quote before `rest` and the next quote. There are no
escapes, and the text may run over several lines. -/
def quoted? (rest : List Char) : Option (Lexeme × List Char) :=
  let body := rest.takeWhile (· != '"')
  match rest.dropWhile (· != '"') with
  | quote :: after =>
      some (⟨.string, '"' :: body ++ [quote], some (.text (String.ofList body))⟩, after)
  | [] => none

/-- Digits, and a point only if more digits follow it. -/
def number (source : List Char) : Lexeme × List Char :=
  let whole := source.takeWhile Char.isDigit
  let wholeOnly : Lexeme × List Char :=
    (⟨.number, whole, some (.number (.ofDecimal (digitsValue whole) 0))⟩,
      source.dropWhile Char.isDigit)
  match source.dropWhile Char.isDigit with
  | '.' :: after =>
      let fraction := after.takeWhile Char.isDigit
      if fraction.isEmpty then wholeOnly
      else
        let value := Double.ofDecimal (digitsValue (whole ++ fraction)) fraction.length
        (⟨.number, whole ++ '.' :: fraction, some (.number value)⟩,
          after.dropWhile Char.isDigit)
  | _ => wholeOnly

def word (source : List Char) : Lexeme × List Char :=
  let text := source.takeWhile isWordPart
  (⟨(Kind.keyword? (String.ofList text)).getD .identifier, text, none⟩,
    source.dropWhile isWordPart)

def twoMarks? : Char → Char → Option Kind
  | '!', '=' => some .bangEqual
  | '=', '=' => some .equalEqual
  | '>', '=' => some .greaterEqual
  | '<', '=' => some .lessEqual
  | '/', '/' => some .slashSlash
  | '-', '>' => some .arrow
  | _, _ => none

def oneMark? : Char → Option Kind
  | '(' => some .leftParen
  | ')' => some .rightParen
  | '\x7b' => some .leftBrace
  | '\x7d' => some .rightBrace
  | ',' => some .comma
  | ':' => some .colon
  | '-' => some .minus
  | '+' => some .plus
  | '/' => some .slash
  | '*' => some .star
  | '!' => some .bang
  | '=' => some .equal
  | '<' => some .less
  | '>' => some .greater
  | _ => none

/-- Two marks that make one token are preferred to the first of them alone. -/
def marks? : List Char → Option (Lexeme × List Char)
  | [] => none
  | [c] => (oneMark? c).map fun kind => (⟨kind, [c], none⟩, [])
  | c :: d :: rest =>
      match twoMarks? c d with
      | some kind => some (⟨kind, [c, d], none⟩, rest)
      | none => (oneMark? c).map fun kind => (⟨kind, [c], none⟩, d :: rest)

/-- The longest lexeme at the head of a text, if one starts there. -/
def split? : List Char → Option (Lexeme × List Char)
  | [] => none
  | c :: rest =>
      if c = '"' then quoted? rest
      else if c.isDigit then some (number (c :: rest))
      else if isWordStart c then some (word (c :: rest))
      else marks? (c :: rest)

theorem quoted?_append {rest after : List Char} {lexeme : Lexeme}
    (h : quoted? rest = some (lexeme, after)) :
    '"' :: rest = lexeme.text ++ after ∧ lexeme.text ≠ [] := by
  unfold quoted? at h
  dsimp only at h
  split at h
  · rename_i quote tail hdrop
    simp only [Option.some.injEq, Prod.mk.injEq] at h
    obtain ⟨rfl, rfl⟩ := h
    refine ⟨?_, by simp⟩
    have hsplit : rest.takeWhile (· != '"') ++ quote :: tail = rest := by
      rw [← hdrop, List.takeWhile_append_dropWhile]
    simpa using hsplit.symm
  · exact absurd h (by simp)

theorem number_append {c : Char} (rest : List Char) (hc : c.isDigit) :
    c :: rest = (number (c :: rest)).1.text ++ (number (c :: rest)).2 ∧
      (number (c :: rest)).1.text ≠ [] := by
  have hsplit := List.takeWhile_append_dropWhile (p := Char.isDigit) (l := c :: rest)
  have hne : (c :: rest).takeWhile Char.isDigit ≠ [] := by simp [hc]
  unfold number
  dsimp only
  split
  · rename_i after hdrop
    split
    · exact ⟨hsplit.symm, hne⟩
    · refine ⟨?_, by simp⟩
      rw [List.append_assoc, List.cons_append, List.takeWhile_append_dropWhile, ← hdrop, hsplit]
  · exact ⟨hsplit.symm, hne⟩

theorem word_append {c : Char} (rest : List Char) (hc : isWordStart c) :
    c :: rest = (word (c :: rest)).1.text ++ (word (c :: rest)).2 ∧
      (word (c :: rest)).1.text ≠ [] := by
  have hpart : isWordPart c := by
    simp only [isWordStart, isWordPart, Bool.or_eq_true, Char.isAlphanum] at hc ⊢
    exact hc.imp_left Or.inl
  exact ⟨(List.takeWhile_append_dropWhile).symm, by simp [word, hpart]⟩

theorem marks?_append {source after : List Char} {lexeme : Lexeme}
    (h : marks? source = some (lexeme, after)) :
    source = lexeme.text ++ after ∧ lexeme.text ≠ [] := by
  unfold marks? at h
  split at h
  · exact absurd h (by simp)
  · simp only [Option.map_eq_some_iff, Prod.mk.injEq] at h
    obtain ⟨kind, _, rfl, rfl⟩ := h
    simp
  · split at h
    · simp only [Option.some.injEq, Prod.mk.injEq] at h
      obtain ⟨rfl, rfl⟩ := h
      simp
    · simp only [Option.map_eq_some_iff, Prod.mk.injEq] at h
      obtain ⟨kind, _, rfl, rfl⟩ := h
      simp

theorem split?_append {source after : List Char} {lexeme : Lexeme}
    (h : split? source = some (lexeme, after)) :
    source = lexeme.text ++ after ∧ lexeme.text ≠ [] := by
  unfold split? at h
  split at h
  · exact absurd h (by simp)
  · rename_i c rest
    split at h
    · rename_i hquote
      exact hquote ▸ quoted?_append h
    · split at h
      · rename_i hdigit
        have hnumber := number_append rest hdigit
        rw [Option.some.injEq] at h
        rwa [h] at hnumber
      · split at h
        · rename_i hword
          have hwhole := word_append rest hword
          rw [Option.some.injEq] at h
          rwa [h] at hwhole
        · exact marks?_append h

theorem split?_shorter {source after : List Char} {lexeme : Lexeme}
    (h : split? source = some (lexeme, after)) : after.length < source.length := by
  obtain ⟨happend, hne⟩ := split?_append h
  rw [happend, List.length_append]
  have := List.length_pos_iff.2 hne
  omega

end Lexeme

end Scriptlet
