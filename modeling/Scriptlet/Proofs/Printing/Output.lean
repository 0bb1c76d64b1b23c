import Scriptlet.Output
import Scriptlet.Span

/-! What becomes of texts that are printed one after another. An output without a bound takes them
all. A bounded one takes them as long as they fit, then the bytes of the next one for which there
is room, and nothing more. -/

namespace Scriptlet

/-- A text that is printed, and the call that prints it. -/
structure Print where
  text : String
  span : Span

namespace Print

def joined : List Print → String
  | [] => ""
  | print :: rest => print.text ++ joined rest

theorem joined_append (first second : List Print) :
    joined (first ++ second) = joined first ++ joined second := by
  induction first with
  | nil => simp [joined]
  | cons print rest ih => simp [joined, ih, String.append_assoc]

/-- What a transcript is behind the texts, if one is kept. -/
def copied (transcript : Option String) (prints : List Print) : Option String :=
  transcript.map (· ++ joined prints)

@[simp] theorem copied_nil (transcript : Option String) : copied transcript [] = transcript := by
  cases transcript <;> simp [copied, joined]

theorem copied_append (transcript : Option String) (first second : List Print) :
    copied transcript (first ++ second) = copied (copied transcript first) second := by
  cases transcript <;> simp [copied, joined_append, String.append_assoc]

end Print

namespace Output

/-- Writes texts in order, and answers the first one that does not fit. -/
def writeAll (output : Output) : List Print → Output × Option Print
  | [] => (output, none)
  | print :: rest =>
      match output.write print.text with
      | (after, true) => after.writeAll rest
      | (after, false) => (after, some print)

section WriteAll

variable {output after : Output} {prints later : List Print} {written : ByteArray} {room : Nat}

theorem writeAll_append_of_fits (h : output.writeAll prints = (after, none)) :
    output.writeAll (prints ++ later) = after.writeAll later := by
  induction prints generalizing output with
  | nil =>
      obtain ⟨rfl, _⟩ := Prod.mk.inj h
      rfl
  | cons print rest ih =>
      rw [List.cons_append, writeAll]
      rw [writeAll] at h
      split at h
      · exact ih h
      · cases h

theorem writeAll_append_of_stops {print : Print}
    (h : output.writeAll prints = (after, some print)) :
    output.writeAll (prints ++ later) = (after, some print) := by
  induction prints generalizing output with
  | nil => cases h
  | cons print rest ih =>
      rw [List.cons_append, writeAll]
      rw [writeAll] at h
      split at h
      · exact ih h
      · exact h

theorem writeAll_unbounded (written : ByteArray) (prints : List Print) :
    (⟨written, none⟩ : Output).writeAll prints =
      (⟨written ++ (Print.joined prints).toByteArray, none⟩, none) := by
  induction prints generalizing written with
  | nil => simp [writeAll, Print.joined]
  | cons print rest ih => simp [writeAll, write, ih, Print.joined, ByteArray.append_assoc]

theorem writeAll_of_le {print : Print} (h : print.text.utf8ByteSize ≤ room) :
    (⟨written, some room⟩ : Output).writeAll (print :: prints) =
      (⟨written ++ print.text.toByteArray, some (room - print.text.utf8ByteSize)⟩ :
        Output).writeAll prints := by
  simp [writeAll, write, h]

theorem writeAll_of_lt {print : Print} (h : room < print.text.utf8ByteSize) :
    (⟨written, some room⟩ : Output).writeAll (print :: prints) =
      (⟨written ++ print.text.toByteArray.extract 0 room, some 0⟩, some print) := by
  simp [writeAll, write, Nat.not_le.mpr h]

theorem writeAll_bounded (h : (Print.joined prints).utf8ByteSize ≤ room) :
    (⟨written, some room⟩ : Output).writeAll prints =
      (⟨written ++ (Print.joined prints).toByteArray,
        some (room - (Print.joined prints).utf8ByteSize)⟩, none) := by
  induction prints generalizing written room with
  | nil => simp [writeAll, Print.joined]
  | cons print rest ih =>
      rw [Print.joined, String.utf8ByteSize_append] at h
      rw [writeAll_of_le (by omega), ih (by omega)]
      simp [Print.joined, ByteArray.append_assoc, Nat.sub_sub]

/-- Of texts for which there is not enough room, one is the first that does not fit, and what is
written ends in the middle of it. -/
theorem writeAll_cut (h : room < (Print.joined prints).utf8ByteSize) :
    ∃ earlier print later, prints = earlier ++ print :: later ∧
      (Print.joined earlier).utf8ByteSize ≤ room ∧
      room < (Print.joined (earlier ++ [print])).utf8ByteSize ∧
      (⟨written, some room⟩ : Output).writeAll prints =
        (⟨written ++ (Print.joined prints).toByteArray.extract 0 room, some 0⟩, some print) := by
  induction prints generalizing written room with
  | nil => simp [Print.joined] at h
  | cons print rest ih =>
      rw [Print.joined, String.utf8ByteSize_append] at h
      by_cases hfits : print.text.utf8ByteSize ≤ room
      · have hcut : print.text.toByteArray.extract 0 room = print.text.toByteArray := by
          rw [← Nat.max_eq_left hfits]
          exact ByteArray.extract_zero_max_size
        obtain ⟨earlier, crossing, later, rfl, hearlier, hcrossing, hwrite⟩ :=
          @ih (written ++ print.text.toByteArray) (room - print.text.utf8ByteSize) (by omega)
        refine ⟨print :: earlier, crossing, later, rfl, ?_, ?_, ?_⟩
        · rw [Print.joined, String.utf8ByteSize_append]
          omega
        · rw [List.cons_append, Print.joined, String.utf8ByteSize_append]
          omega
        · rw [writeAll_of_le hfits, hwrite]
          simp [Print.joined, ByteArray.extract_append, hcut, ByteArray.append_assoc]
      · have hroom : room < print.text.utf8ByteSize := Nat.lt_of_not_le hfits
        refine ⟨[], print, rest, rfl, Nat.zero_le _, ?_, ?_⟩
        · simpa [Print.joined] using hroom
        · have hnone : room - print.text.utf8ByteSize = 0 := by omega
          rw [writeAll_of_lt hroom]
          simp [Print.joined, ByteArray.extract_append, hnone]

end WriteAll

end Output

end Scriptlet
