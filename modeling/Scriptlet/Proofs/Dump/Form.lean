import Scriptlet.Proofs.Tree.Relabel
import Scriptlet.Syntax.Sexp

/-! A dump as nested forms, and a reader that takes a text apart into forms. It looks no further
than the forms need: a text goes up to the next quote, a word up to the next character that
words do not have, a list up to its closing parenthesis, and a type may follow a word or a list. -/

namespace Scriptlet

def Span.nowhere : Span := ⟨0, 0, 0⟩

/-- Takes away the places and the types, and leaves the names as they are. -/
def Relabel.placeless : Relabel := ⟨fun _ => .nowhere, fun _ => none, id⟩

/-- What a dump is made of. A word may have a type behind a colon, a list one behind an arrow. -/
inductive Form where
  | quoted (text : String)
  | word (text : String) (declared : Option TypeExpr)
  | list (items : List Form) (result : Option TypeExpr)

namespace Form

def arrow : List Char := [' ', '-', '>', ' ']

def behind (mark : List Char) : Option TypeExpr → List Char
  | none => []
  | some written => mark ++ written.sexp.toList

mutual

def text : Form → List Char
  | .quoted text => '"' :: (text.toList ++ ['"'])
  | .word text declared => text.toList ++ behind [':'] declared
  | .list items result => '(' :: ([' '].intercalate (texts items) ++ ')' :: behind arrow result)

def texts : List Form → List (List Char)
  | [] => []
  | form :: rest => form.text :: texts rest

end

mutual

def placeless : Form → Form
  | .quoted text => .quoted text
  | .word text declared => .word text (declared.map (TypeExpr.relabel .placeless))
  | .list items result => .list (allPlaceless items) (result.map (TypeExpr.relabel .placeless))

def allPlaceless : List Form → List Form
  | [] => []
  | form :: rest => form.placeless :: allPlaceless rest

end

def wordEnds : List Char := [' ', ',', '(', ')', ':', '"', '\n']

def isWordChar (c : Char) : Bool := !wordEnds.contains c

def isSeparator (c : Char) : Bool := c == ' ' || c == ','

section Reader

variable {α : Type}

def items? (item : List Char → Option (α × List Char)) :
    Nat → List Char → Option (List α × List Char)
  | 0, _ => none
  | fuel + 1, text =>
      let text := text.dropWhile isSeparator
      if text.head? = some ')' then some ([], text.tail)
      else do
        let (first, rest) ← item text
        let (more, rest) ← items? item fuel rest
        return (first :: more, rest)

def behind? (mark : List Char) (item : List Char → Option (α × List Char)) (text : List Char) :
    Option (Option α × List Char) :=
  if mark.isPrefixOf text then
    (item (text.drop mark.length)).map fun (found, rest) => (some found, rest)
  else some (none, text)

def type? : Nat → List Char → Option (TypeExpr × List Char)
  | 0, _ => none
  | fuel + 1, text =>
      let word := text.takeWhile isWordChar
      let rest := text.dropWhile isWordChar
      if word = ['f', 'n'] then do
        let (params, rest) ← items? (type? fuel) fuel rest.tail
        let (result, rest) ← behind? arrow (type? fuel) rest
        return (.function params result .nowhere, rest)
      else some (.named (String.ofList word) .nowhere, rest)

def form? : Nat → List Char → Option (Form × List Char)
  | 0, _ => none
  | fuel + 1, text =>
      if text.head? = some '"' then
        some (.quoted (String.ofList (text.tail.takeWhile (· != '"'))),
          (text.tail.dropWhile (· != '"')).tail)
      else if text.head? = some '(' then do
        let (items, rest) ← items? (form? fuel) fuel text.tail
        let (result, rest) ← behind? arrow (type? fuel) rest
        return (.list items result, rest)
      else do
        let (declared, rest) ← behind? [':'] (type? fuel) (text.dropWhile isWordChar)
        return (.word (String.ofList (text.takeWhile isWordChar)) declared, rest)

def lines? : Nat → List Char → Option (List Form)
  | 0, _ => none
  | fuel + 1, text =>
      if text = [] then some []
      else do
        let (form, rest) ← form? fuel text
        guard (rest.head? = some '\n')
        let more ← lines? fuel rest.tail
        return form :: more

end Reader

end Form

end Scriptlet
