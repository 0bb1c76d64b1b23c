import Scriptlet.Proofs.Scanning

/-! Lexemes written one after another. Each of them is scanned as it was written if it does not go
on with what comes next, and no lexeme goes on with a gap. So where gaps stand between lexemes, how
a text is laid out tells only the places of its tokens. -/

namespace Scriptlet

theorem Lexeme.not_goesOn_gap {c : Char} (h : isBlank c ∨ c = ';') (lexeme : Lexeme) :
    ¬lexeme.goesOn c := by
  have hclass : c.isDigit = false ∧ c ≠ '.' ∧ isWordPart c = false ∧
      ∀ first, twoMarks? first c = none := by
    simp only [isBlank, Bool.or_eq_true, beq_iff_eq] at h
    rcases h with (((rfl | rfl) | rfl) | rfl) | rfl
    all_goals
      refine ⟨by decide, by decide, by decide, fun first => ?_⟩
      unfold twoMarks?
      split <;> simp_all
  obtain ⟨hdigit, hpoint, hword, hmarks⟩ := hclass
  unfold goesOn
  split
  · simp
  · simp [hdigit, hpoint]
  · split
    · split <;> simp [hmarks]
    · simp [hword]

theorem Gap.head {atEnd : Bool} {gap : List Char} (h : Gap atEnd gap) :
    ∀ c ∈ gap.head?, isBlank c ∨ c = ';' := by
  cases h with
  | nil => simp
  | blank hblank _ => simpa using .inl hblank
  | comment _ _ | unclosed _ _ => simp

/-- A lexeme and the gap in front of it. -/
structure SpacedLexeme where
  gap : List Char
  lexeme : Lexeme

namespace SpacedLexeme

def text (pieces : List SpacedLexeme) (finish : List Char) : List Char :=
  pieces.flatMap (fun piece => piece.gap ++ piece.lexeme.text) ++ finish

def tokens (place : Position) : List SpacedLexeme → List Token
  | [] => []
  | piece :: rest =>
      piece.lexeme.toToken (place.after piece.gap) ::
        tokens ((place.after piece.gap).after piece.lexeme.text) rest

def Apart : List SpacedLexeme → List Char → Prop
  | [], finish => Gap true finish
  | piece :: rest, finish =>
      (Gap false piece.gap ∧ piece.lexeme.Valid ∧
        ∀ c ∈ (text rest finish).head?, ¬piece.lexeme.goesOn c) ∧ Apart rest finish

variable {pieces : List SpacedLexeme} {piece : SpacedLexeme} {finish : List Char}

theorem text_cons (piece : SpacedLexeme) (rest : List SpacedLexeme) (finish : List Char) :
    text (piece :: rest) finish = piece.gap ++ (piece.lexeme.text ++ text rest finish) := by
  simp [text]

theorem Apart.layout (h : Apart pieces finish) (place : Position) :
    Token.Layout place (text pieces finish) (tokens place pieces ++
      [Token.endOfInput ((place.after (text pieces finish)).spanOf 0)]) := by
  induction pieces generalizing place with
  | nil => exact .finish h
  | cons piece rest ih =>
      obtain ⟨⟨hgap, hvalid, hnext⟩, hrest⟩ := h
      have hplace : place.after (text (piece :: rest) finish) =
          ((place.after piece.gap).after piece.lexeme.text).after (text rest finish) := by
        rw [text_cons, Position.after_append, Position.after_append]
      rw [hplace, text_cons]
      exact .token hgap (hvalid.longest hnext) (ih hrest _)

theorem map_toLexeme_tokens (place : Position) (pieces : List SpacedLexeme) :
    (tokens place pieces).map Token.toLexeme = pieces.map lexeme := by
  induction pieces generalizing place with
  | nil => rfl
  | cons piece rest ih => simp [tokens, ih, Lexeme.toToken, Token.toLexeme]

theorem tokens_getElem? (place : Position) (earlier : List SpacedLexeme) (piece : SpacedLexeme)
    (later : List SpacedLexeme) : (tokens place (earlier ++ piece :: later))[earlier.length]? =
      some (piece.lexeme.toToken (place.after (text earlier piece.gap))) := by
  induction earlier generalizing place with
  | nil => rfl
  | cons first earlier ih =>
      simp only [List.cons_append, tokens, List.length_cons, List.getElem?_cons_succ, ih]
      rw [text_cons, Position.after_append, Position.after_append]

theorem apart_of_gaps (hpieces : ∀ piece ∈ pieces, piece.lexeme.Valid ∧ Gap false piece.gap)
    (hbetween : ∀ piece ∈ pieces.tail, piece.gap ≠ []) (hfinish : Gap true finish) :
    Apart pieces finish := by
  induction pieces with
  | nil => exact hfinish
  | cons piece rest ih =>
      obtain ⟨⟨hvalid, hgap⟩, hrest⟩ := List.forall_mem_cons.mp hpieces
      have hrest' := ih hrest fun next hnext => hbetween next (List.mem_of_mem_tail hnext)
      refine ⟨⟨hgap, hvalid, fun c hc => Lexeme.not_goesOn_gap ?_ _⟩, hrest'⟩
      cases rest with
      | nil => exact hfinish.head c hc
      | cons next rest =>
          obtain ⟨d, gap, hd⟩ := List.exists_cons_of_ne_nil (hbetween next List.mem_cons_self)
          rw [text_cons, hd, List.cons_append, List.head?_cons] at hc
          exact (hrest next List.mem_cons_self).2.head c (by rwa [hd, List.head?_cons])

end SpacedLexeme

namespace Token

/-- Lexemes that are written with gaps between them are scanned as just these lexemes, each at the
place where it was written, and an end. The gaps make no other difference. -/
theorem scan_spaced (pieces : List SpacedLexeme) (finish : List Char)
    (hpieces : ∀ piece ∈ pieces, piece.lexeme.Valid ∧ Gap false piece.gap)
    (hbetween : ∀ piece ∈ pieces.tail, piece.gap ≠ []) (hfinish : Gap true finish) :
    ∃ tokens, scan (String.ofList (SpacedLexeme.text pieces finish)) =
        .ok (tokens ++ [endOfInput ⟨byteLength (SpacedLexeme.text pieces finish), 0,
          1 + (SpacedLexeme.text pieces finish).count '\n'⟩]) ∧
      tokens.map toLexeme = pieces.map SpacedLexeme.lexeme ∧
      ∀ earlier piece later, pieces = earlier ++ piece :: later →
        tokens[earlier.length]?.map Token.span =
          some ⟨byteLength (SpacedLexeme.text earlier piece.gap), byteLength piece.lexeme.text,
            1 + (SpacedLexeme.text earlier piece.gap).count '\n'⟩ := by
  have hlayout := (SpacedLexeme.apart_of_gaps hpieces hbetween hfinish).layout .start
  rw [spanOf_after_start] at hlayout
  refine ⟨SpacedLexeme.tokens .start pieces, ?_, SpacedLexeme.map_toLexeme_tokens .start pieces, ?_⟩
  · rw [scan, String.toList_ofList]
    exact scanFrom_of_layout hlayout
  · rintro earlier piece later rfl
    rw [SpacedLexeme.tokens_getElem?, Option.map_some]
    exact congrArg some (spanOf_after_start _ _)

/-- A slash in front of a comment with a quote in it, and a text with a comment in it. -/
def entangled : List SpacedLexeme :=
  [⟨[], .fixed .slash⟩, ⟨[' ', ';', ';', ' ', '"', '\n'], .quotation ['a', ';', ';', '\n', 'b']⟩,
    ⟨['\t'], .wholeNumber ['0', '7']⟩]

theorem entangled_scanned : (∀ piece ∈ entangled, piece.lexeme.Valid ∧ Gap false piece.gap) ∧
    (∀ piece ∈ entangled.tail, piece.gap ≠ []) ∧ Gap true [] ∧
    ∃ tokens, scan "/ ;; \"\n\"a;;\nb\"\t07" = .ok (tokens ++ [endOfInput ⟨17, 0, 3⟩]) ∧
      tokens.map toLexeme = entangled.map SpacedLexeme.lexeme ∧
      tokens[1]?.map Token.span = some ⟨7, 7, 2⟩ ∧ tokens[2]?.map Token.span = some ⟨15, 2, 3⟩ := by
  have hbody : '\n' ∉ [' ', '"'] := by decide
  have hcomment : Gap false [' ', ';', ';', ' ', '"', '\n'] :=
    .blank (by decide) (.comment hbody .nil)
  have hpieces : ∀ piece ∈ entangled, piece.lexeme.Valid ∧ Gap false piece.gap := by
    intro piece hmem
    simp only [entangled, List.mem_cons, List.not_mem_nil, or_false] at hmem
    rcases hmem with rfl | rfl | rfl
    · exact ⟨.mark (by decide), .nil⟩
    · exact ⟨.quoted (by decide), hcomment⟩
    · exact ⟨.whole ⟨by decide, List.all_eq_true.mp (by decide)⟩, .blank (by decide) .nil⟩
  have hbetween : ∀ piece ∈ entangled.tail, piece.gap ≠ [] := by simp [entangled]
  obtain ⟨tokens, hscan, hlexemes, hspans⟩ := scan_spaced entangled [] hpieces hbetween .nil
  have hsource : String.ofList (SpacedLexeme.text entangled []) = "/ ;; \"\n\"a;;\nb\"\t07" := by
    decide +kernel
  have hend : endOfInput ⟨byteLength (SpacedLexeme.text entangled []), 0,
      1 + (SpacedLexeme.text entangled []).count '\n'⟩ = endOfInput ⟨17, 0, 3⟩ := by decide +kernel
  rw [hsource, hend] at hscan
  refine ⟨hpieces, hbetween, .nil, tokens, hscan, hlexemes, ?_, ?_⟩
  · exact (hspans (entangled.take 1) _ (entangled.drop 2) rfl).trans (by decide +kernel)
  · exact (hspans (entangled.take 2) _ [] rfl).trans (by decide +kernel)

end Token

end Scriptlet
