/-! Where printed text goes. A bounded output takes bytes as long as there is room, and the
text that does not fit any more is cut off in the middle. -/

namespace Scriptlet

/-- The bytes written so far, and how many more fit if there is a bound. -/
structure Output where
  written : ByteArray
  room : Option Nat

namespace Output

def unbounded : Output := ⟨.empty, none⟩

def bounded (room : Nat) : Output := ⟨.empty, some room⟩

/-- Writes as much of a text as fits, and tells whether that was all of it. -/
def write (output : Output) (text : String) : Output × Bool :=
  let bytes := text.toUTF8
  match output.room with
  | none => (⟨output.written ++ bytes, none⟩, true)
  | some room =>
      if bytes.size ≤ room then (⟨output.written ++ bytes, some (room - bytes.size)⟩, true)
      else (⟨output.written ++ bytes.extract 0 room, some 0⟩, false)

end Output

/-- The text that some bytes spell. Bytes at the end that begin a character without ending
it are shown as one replacement character. -/
def textOfBytes (bytes : ByteArray) : String :=
  match String.fromUTF8? bytes with
  | some text => text
  | none =>
      let shortened := [1, 2, 3].findSome? fun cut =>
        String.fromUTF8? (bytes.extract 0 (bytes.size - cut))
      match shortened with
      | some text => text.push '\uFFFD'
      | none => ""

end Scriptlet
