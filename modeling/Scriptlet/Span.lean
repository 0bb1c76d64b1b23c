/-! Places in a source text. Offsets, lengths and columns count bytes of UTF-8; lines and
columns start at one, and only a line feed starts a new line. -/

namespace Scriptlet

/-- A stretch of source text and the line on which it begins. -/
structure Span where
  offset : Nat
  len : Nat
  line : Nat
deriving DecidableEq, Repr

namespace Span

def stop (span : Span) : Nat := span.offset + span.len

/-- From the start of one span through the end of the later-ending of the two. -/
def upTo (start finish : Span) : Span :=
  ⟨start.offset, max finish.stop start.stop - start.offset, start.line⟩

end Span

structure Position where
  offset : Nat
  line : Nat
  column : Nat
deriving DecidableEq, Repr

namespace Position

def start : Position := ⟨0, 1, 1⟩

def step (p : Position) (c : Char) : Position :=
  if c = '\n' then ⟨p.offset + c.utf8Size, p.line + 1, 1⟩
  else ⟨p.offset + c.utf8Size, p.line, p.column + c.utf8Size⟩

def after (p : Position) (text : List Char) : Position := text.foldl step p

@[simp] theorem after_nil (p : Position) : p.after [] = p := rfl

theorem after_append (p : Position) (first second : List Char) :
    p.after (first ++ second) = (p.after first).after second := by
  simp [after]

def spanOf (p : Position) (len : Nat) : Span := ⟨p.offset, len, p.line⟩

end Position

def byteLength : List Char → Nat
  | [] => 0
  | c :: rest => c.utf8Size + byteLength rest

theorem Position.after_offset (p : Position) (text : List Char) :
    (p.after text).offset = p.offset + byteLength text := by
  induction text generalizing p with
  | nil => simp [byteLength]
  | cons c rest ih =>
      have hstep : (p.step c).offset = p.offset + c.utf8Size := by
        unfold Position.step
        split <;> rfl
      have hrest := ih (p.step c)
      simp only [Position.after, List.foldl_cons] at hrest ⊢
      simp only [hrest, hstep, byteLength]
      omega

theorem byteLength_append (first second : List Char) :
    byteLength (first ++ second) = byteLength first + byteLength second := by
  induction first with
  | nil => simp [byteLength]
  | cons c rest ih => simp only [List.cons_append, byteLength, ih]; omega

theorem byteLength_toList (text : String) : byteLength text.toList = text.utf8ByteSize := by
  have hencode : ∀ chars : List Char, byteLength chars = chars.utf8Encode.size := by
    intro chars
    induction chars with
    | nil => simp [byteLength]
    | cons c rest ih =>
        rw [List.utf8Encode_cons, ByteArray.size_append, byteLength, ih, List.utf8Encode_singleton]
        simp
  rw [hencode, String.utf8Encode_toList, String.size_toByteArray]

theorem Position.after_line (p : Position) (text : List Char) :
    (p.after text).line = p.line + text.count '\n' := by
  induction text generalizing p with
  | nil => simp
  | cons c rest ih =>
      have hrest := ih (p.step c)
      simp only [Position.after, List.foldl_cons] at hrest ⊢
      rw [hrest, List.count_cons, Position.step]
      by_cases hc : c = '\n'
      · simp [hc]; omega
      · simp [hc]

theorem append_inj_of_byteLength {first second first' second' : List Char}
    (h : first ++ second = first' ++ second') (hlength : byteLength first = byteLength first') :
    first = first' ∧ second = second' := by
  induction first generalizing first' with
  | nil =>
      cases first' with
      | nil => exact ⟨rfl, h⟩
      | cons c rest =>
          have := c.utf8Size_pos
          simp only [byteLength] at hlength
          omega
  | cons c rest ih =>
      cases first' with
      | nil =>
          have := c.utf8Size_pos
          simp only [byteLength] at hlength
          omega
      | cons d rest' =>
          obtain ⟨rfl, hrest⟩ := List.cons.inj h
          simp only [byteLength] at hlength
          obtain ⟨rfl, hsecond⟩ := ih hrest (by omega)
          exact ⟨rfl, hsecond⟩

def splitAtByte? : List Char → Nat → Option (List Char × List Char)
  | rest, 0 => some ([], rest)
  | [], _ + 1 => none
  | c :: rest, n + 1 =>
      if c.utf8Size ≤ n + 1 then
        (splitAtByte? rest (n + 1 - c.utf8Size)).map fun (front, back) => (c :: front, back)
      else none

theorem splitAtByte?_append (front back : List Char) :
    splitAtByte? (front ++ back) (byteLength front) = some (front, back) := by
  induction front with
  | nil => simp [byteLength, splitAtByte?]
  | cons c rest ih =>
      obtain ⟨size, hsize⟩ := Nat.exists_eq_add_one.mpr c.utf8Size_pos
      have hlength : byteLength (c :: rest) = size + byteLength rest + 1 := by
        rw [byteLength, hsize]
        omega
      have hrest : size + byteLength rest + 1 - c.utf8Size = byteLength rest := by omega
      rw [List.cons_append, hlength, splitAtByte?, if_pos (by omega), hrest, ih]
      rfl

end Scriptlet
