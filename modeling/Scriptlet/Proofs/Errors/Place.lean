import Scriptlet.Proofs.Scanning

/-! Spans that lie in a source text. Such a span begins and ends between two characters, and its
line counts the line feeds in front of it. The tokens of a text lie in it, and so does the place
at which it cannot be scanned any further. -/

namespace Scriptlet

/-- A stretch of the source text, with the line on which it begins. -/
def Span.Within (source : String) (span : Span) : Prop :=
  ∃ before text after : String, source = before ++ text ++ after ∧
    span = ⟨before.utf8ByteSize, text.utf8ByteSize, 1 + before.toList.count '\n'⟩

def Span.atEnd (source : String) (len : Nat) : Span :=
  ⟨source.utf8ByteSize, len, 1 + source.toList.count '\n'⟩

namespace Span

variable {source : String} {span start finish : Span}

theorem within_iff : span.Within source ↔ ∃ before text after : List Char,
    source.toList = before ++ (text ++ after) ∧
      span = ⟨byteLength before, byteLength text, 1 + before.count '\n'⟩ := by
  constructor
  · rintro ⟨before, text, after, rfl, rfl⟩
    exact ⟨before.toList, text.toList, after.toList, by simp, by simp only [byteLength_toList]⟩
  · rintro ⟨before, text, after, hsource, rfl⟩
    refine ⟨String.ofList before, String.ofList text, String.ofList after, ?_, ?_⟩
    · exact String.toList_injective (by simp [hsource])
    · simp [← byteLength_toList]

theorem append_of_byteLength_le {first second first' second' : List Char}
    (h : first ++ second = first' ++ second') (hle : byteLength first ≤ byteLength first') :
    ∃ between, first' = first ++ between ∧ second = between ++ second' := by
  have hprefix : first <+: first' ++ second' := ⟨second, h⟩
  rcases List.prefix_or_prefix_of_prefix hprefix (List.prefix_append first' second') with
    ⟨between, rfl⟩ | ⟨between, rfl⟩
  · exact ⟨between, rfl, List.append_cancel_left (by rw [h, List.append_assoc])⟩
  · rw [byteLength_append] at hle
    have hnil : between = [] := by
      cases between with
      | nil => rfl
      | cons c rest =>
          have := c.utf8Size_pos
          rw [byteLength] at hle
          omega
    subst hnil
    rw [List.append_nil] at h
    exact ⟨[], by simp, List.append_cancel_left h⟩

theorem Within.upTo (hstart : start.Within source) (hfinish : finish.Within source) :
    (start.upTo finish).Within source := by
  rw [within_iff] at *
  obtain ⟨before, text, after, hsource, rfl⟩ := hstart
  obtain ⟨before', text', after', hsource', rfl⟩ := hfinish
  simp only [Span.upTo, stop]
  by_cases hle : byteLength before' + byteLength text' ≤ byteLength before + byteLength text
  · rw [Nat.max_eq_right hle, Nat.add_sub_cancel_left]
    exact ⟨before, text, after, hsource, rfl⟩
  · have hsame : before ++ (text ++ after) = (before' ++ text') ++ after' := by
      rw [← hsource, hsource', List.append_assoc]
    obtain ⟨between, hbetween, hafter⟩ := append_of_byteLength_le hsame (by
      rw [byteLength_append]
      omega)
    have hlength : byteLength before' + byteLength text' =
        byteLength before + byteLength between := by
      rw [← byteLength_append, hbetween, byteLength_append]
    refine ⟨before, between, after', by rw [hsource, hafter], ?_⟩
    rw [hlength, Nat.max_eq_left (by omega), Nat.add_sub_cancel_left]

end Span

/-- A token stands in the source text. One that takes no room stands at its end. -/
structure Token.Standing (source : String) (token : Token) : Prop where
  within : token.span.Within source
  room : 1 ≤ token.span.len ∨ token.span = .atEnd source 0

section Scan

variable {source : String} {tokens : List Token}

theorem Token.Exact.standing (h : Token.Exact source tokens) :
    ∀ token ∈ tokens, token.Standing source := by
  intro token hmem
  obtain ⟨before, after, hsource, hspan⟩ := h.slice token hmem
  refine ⟨⟨before, token.lexeme, after, hsource, hspan⟩, ?_⟩
  have hlast : tokens ≠ [] := List.ne_nil_of_mem hmem
  rw [← List.dropLast_append_getLast hlast] at hmem
  rcases List.mem_append.mp hmem with hinner | hfinish
  · -- A token in front of the last one has a lexeme.
    have hoffset : before.utf8ByteSize = token.span.offset := by rw [hspan]
    have hlongest := h.longest token hinner before (token.lexeme ++ after)
      (by rw [hsource, String.append_assoc]) hoffset
    have hne : token.lexeme.toList ≠ [] := hlongest.valid.text_ne_nil
    have hlen : token.span.len = byteLength token.lexeme.toList := by
      rw [hspan, byteLength_toList]
    left
    rw [hlen]
    cases hlexeme : token.lexeme.toList with
    | nil => exact absurd hlexeme hne
    | cons c rest =>
        have := c.utf8Size_pos
        rw [byteLength]
        omega
  · right
    rw [List.mem_singleton.mp hfinish]
    have hget := h.last
    rw [List.getLast?_eq_getLast_of_ne_nil hlast] at hget
    rw [Option.some.inj hget]
    rfl

theorem Token.scanFrom_error {place : Position} {source : List Char} {e : LexError}
    (h : scanFrom place source = .error e) : ∃ before c rest, source = before ++ c :: rest ∧
      e = .atHead (place.after before) c rest := by
  have hsource := splitGap_append false source
  cases hgap : (splitGap false source).2 with
  | nil =>
      rw [scanFrom_of_gap hgap] at h
      cases h
  | cons c rest =>
      rw [scanFrom_of_lexeme hgap] at h
      rw [hgap] at hsource
      split at h
      · exact ⟨_, c, rest, hsource.symm, (Except.error.inj h).symm⟩
      · rename_i lexeme after hsplit
        obtain ⟨hlongest, happend⟩ := Lexeme.split?_eq_some_iff.mp hsplit
        cases htail : scanFrom ((place.after (splitGap false source).1).after lexeme.text)
            after with
        | ok tail =>
            rw [htail] at h
            cases h
        | error found =>
            rw [htail] at h
            obtain rfl : found = e := Except.error.inj h
            have hshorter : after.length < source.length := by
              have hne := List.length_pos_iff.mpr hlongest.valid.text_ne_nil
              rw [← hsource, happend]
              simp only [List.length_append]
              omega
            obtain ⟨before, c, rest, rfl, rfl⟩ := scanFrom_error htail
            refine ⟨(splitGap false source).1 ++ (lexeme.text ++ before), c, rest, ?_, ?_⟩
            · rw [List.append_assoc, List.append_assoc, ← happend, hsource]
            · rw [Position.after_append, Position.after_append]
termination_by source.length

theorem LexError.span_within {e : LexError} (h : Token.scan source = .error e) :
    e.span.Within source := by
  obtain ⟨before, c, rest, hsource, rfl⟩ := Token.scanFrom_error h
  have hplace (text after : List Char) (happend : c :: rest = text ++ after) :
      ((Position.start.after before).spanOf (byteLength text)).Within source :=
    Span.within_iff.mpr ⟨before, text, after, by rw [hsource, happend], Token.spanOf_after_start ..⟩
  unfold atHead
  split
  · exact hplace (c :: rest) [] (by simp)
  · split
    · rename_i hsemicolon
      have hsize : byteLength [c] = 1 := by rw [hsemicolon]; rfl
      rw [← hsize]
      exact hplace [c] rest rfl
    · have hsize : byteLength [c] = c.utf8Size := by simp [byteLength]
      rw [← hsize]
      exact hplace [c] rest rfl

end Scan

end Scriptlet
