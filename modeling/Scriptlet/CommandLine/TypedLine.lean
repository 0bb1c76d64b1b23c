import Scriptlet.Text.Grapheme
import Scriptlet.Text.Whitespace

/-! Lines as they come from a terminal that leaves corrections to the program: a backspace takes
away what a reader sees as the character before it. -/

namespace Scriptlet

namespace CommandLine

/-- The lines of an input, each with its line end. The last one has none. -/
def inputLines (input : String) : List String :=
  let pieces := input.splitOn "\n"
  pieces.dropLast.map (· ++ "\n") ++ pieces.getLast?.toList

/-- A line without its line end. A carriage return belongs to a line end only before a line
feed. -/
def withoutLineEnd (line : List Char) : List Char :=
  match line.reverse with
  | '\n' :: '\r' :: rest => rest.reverse
  | '\n' :: rest => rest.reverse
  | _ => line

def backspace : List Char := [Char.ofNat 8]

def typeOn (kept : List (List Char)) (grapheme : List Char) : List (List Char) :=
  if grapheme = backspace then kept.tail else grapheme :: kept

def typedText (line : String) : String :=
  String.ofList ((graphemes (withoutLineEnd line.toList)).foldl typeOn []).reverse.flatten

end CommandLine

end Scriptlet
