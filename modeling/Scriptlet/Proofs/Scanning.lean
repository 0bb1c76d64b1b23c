import Mathlib.Data.List.DropRight
import Scriptlet.Proofs.Scanning.Layout

/-! Scanning is exact: the tokens of a source text are just those whose spans, lexemes and gaps
agree with the text, and each is the longest lexeme at its place. -/

namespace Scriptlet

namespace Token

/-- Where some tokens end that begin at `start`. -/
def stopFrom (start : Nat) : List Token → Nat
  | [] => start
  | token :: rest => stopFrom token.span.stop rest

def toLexeme (token : Token) : Lexeme := ⟨token.kind, token.lexeme.toList, token.payload⟩

/-- The tokens of a source text, as the text itself tells. Lengths count bytes. -/
structure Exact (source : String) (tokens : List Token) : Prop where
  /-- The last token stands for the end of the source, and no other one does. -/
  last : tokens.getLast? =
    some (endOfInput ⟨source.utf8ByteSize, 0, 1 + source.toList.count '\n'⟩)
  only : ∀ token ∈ tokens.dropLast, token.kind ≠ .endOfInput
  /-- The spans are in order and do not overlap. -/
  ordered : tokens.Pairwise fun first second => first.span.stop ≤ second.span.offset
  /-- A lexeme is the text under its span, and the span knows the line. -/
  slice : ∀ token ∈ tokens, ∃ before after : String, source = before ++ token.lexeme ++ after ∧
    token.span =
      ⟨before.utf8ByteSize, token.lexeme.utf8ByteSize, 1 + before.toList.count '\n'⟩
  /-- Between a token and the one before it, or the beginning of the text, there is a gap. -/
  gap : ∀ earlier token later, tokens = earlier ++ token :: later →
    ∃ before gap after : String, source = before ++ gap ++ after ∧
      before.utf8ByteSize = stopFrom 0 earlier ∧
      (before ++ gap).utf8ByteSize = token.span.offset ∧ Gap later.isEmpty gap.toList
  /-- A token is the longest lexeme that begins where it begins. -/
  longest : ∀ token ∈ tokens.dropLast, ∀ before after : String, source = before ++ after →
    before.utf8ByteSize = token.span.offset → token.toLexeme.Longest after.toList

theorem spanOf_after_start (text : List Char) (len : Nat) :
    (Position.start.after text).spanOf len = ⟨byteLength text, len, 1 + text.count '\n'⟩ := by
  simp [Position.spanOf, Position.start, Position.after_offset, Position.after_line]

section Layout

variable {place : Position} {source : List Char} {token : Token} {tokens earlier later : List Token}

theorem Layout.ne_nil (h : Layout place source tokens) : tokens ≠ [] := by
  cases h <;> simp

theorem Layout.first (h : Layout place source (token :: tokens)) :
    (tokens = [] ∧ Gap true source ∧ token = endOfInput ((place.after source).spanOf 0)) ∨
      ∃ gap lexeme rest, source = gap ++ (Lexeme.text lexeme ++ rest) ∧ Gap false gap ∧
        lexeme.Longest (lexeme.text ++ rest) ∧ token = lexeme.toToken (place.after gap) ∧
          Layout ((place.after gap).after lexeme.text) rest tokens := by
  cases h with
  | finish hgap => exact .inl ⟨rfl, hgap, rfl⟩
  | token hgap hlexeme hrest => exact .inr ⟨_, _, _, rfl, hgap, hlexeme, rfl, hrest⟩

@[simp] theorem stop_toToken (lexeme : Lexeme) (place : Position) :
    (lexeme.toToken place).span.stop = place.offset + byteLength lexeme.text := rfl

/-- A layout can be taken up at any of its tokens. -/
theorem Layout.drop (h : Layout place source (earlier ++ later)) (hlater : later ≠ []) :
    ∃ before rest, source = before ++ rest ∧ Layout (place.after before) rest later ∧
      stopFrom place.offset earlier = (place.after before).offset := by
  induction earlier generalizing place source with
  | nil => exact ⟨[], source, rfl, h, rfl⟩
  | cons token earlier ih =>
      rcases h.first with ⟨hnil, _⟩ | ⟨gap, lexeme, rest, rfl, _, _, rfl, hrest⟩
      · simp [hlater] at hnil
      · obtain ⟨before, rest, rfl, hlayout, hstop⟩ := ih hrest
        refine ⟨gap ++ lexeme.text ++ before, rest, by simp, ?_, ?_⟩
        · simpa [Position.after_append] using hlayout
        · simpa [stopFrom, Position.after_append, Position.after_offset] using hstop

theorem Layout.placed (h : Layout .start source (earlier ++ token :: later)) :
    ∃ before gap after, source = before ++ gap ++ (token.lexeme.toList ++ after) ∧
      byteLength before = stopFrom 0 earlier ∧ Gap later.isEmpty gap ∧
      token.span = ⟨byteLength (before ++ gap), byteLength token.lexeme.toList,
        1 + (before ++ gap).count '\n'⟩ ∧
      (later = [] ∨ token.toLexeme.Longest (token.lexeme.toList ++ after)) := by
  obtain ⟨before, rest, rfl, hlayout, hstop⟩ := h.drop (by simp)
  have hbefore : byteLength before = stopFrom 0 earlier := by
    simpa [Position.start, Position.after_offset] using hstop.symm
  have hplace : ∀ gap len, ((Position.start.after before).after gap).spanOf len =
      ⟨byteLength (before ++ gap), len, 1 + (before ++ gap).count '\n'⟩ := by
    intro gap len
    rw [← Position.after_append, spanOf_after_start]
  rcases hlayout.first with ⟨rfl, hgap, rfl⟩ | ⟨gap, lexeme, rest, rfl, hgap, hlexeme, rfl, hrest⟩
  · exact ⟨before, rest, [], by simp [endOfInput], hbefore, hgap, hplace _ _, .inl rfl⟩
  · have hlater : later.isEmpty = false := List.isEmpty_eq_false_iff.mpr hrest.ne_nil
    refine ⟨before, gap, rest, ?_, hbefore, hlater ▸ hgap, ?_, .inr ?_⟩
    · simp [Lexeme.toToken]
    · simpa [Lexeme.toToken] using hplace gap _
    · simpa [Lexeme.toToken, toLexeme] using hlexeme

theorem Layout.getLast?_eq (h : Layout place source tokens) :
    tokens.getLast? = some (endOfInput ((place.after source).spanOf 0)) := by
  induction h with
  | finish _ => rfl
  | @token place gap rest lexeme tokens _ _ hrest ih =>
      rw [List.getLast?_cons_of_ne_nil hrest.ne_nil, ih]
      simp [Position.after_append]

theorem Layout.offset_le (h : Layout place source tokens) :
    ∀ token ∈ tokens, place.offset ≤ token.span.offset := by
  induction h with
  | finish _ => simp [endOfInput, Position.spanOf, Position.after_offset]
  | token _ _ _ ih =>
      refine List.forall_mem_cons.mpr ⟨?_, fun token htoken => ?_⟩
      · simp [Lexeme.toToken, Position.spanOf, Position.after_offset]
      · refine Nat.le_trans ?_ (ih token htoken)
        rw [Position.after_offset, Position.after_offset]
        omega

theorem Layout.pairwise (h : Layout place source tokens) :
    tokens.Pairwise fun first second => first.span.stop ≤ second.span.offset := by
  induction h with
  | finish _ => simp
  | token _ _ hrest ih =>
      refine List.pairwise_cons.mpr ⟨fun token htoken => ?_, ih⟩
      rw [stop_toToken, ← Position.after_offset]
      exact hrest.offset_le token htoken

end Layout

section Exact

variable {source : String} {tokens : List Token}

theorem kind_ne_of_valid {lexeme : Lexeme} (h : lexeme.Valid) : lexeme.kind ≠ .endOfInput := by
  have hmarks : ∀ kind ∈ Kind.marks, kind ≠ .endOfInput := by decide
  have hkeywords : ∀ kind ∈ Kind.keywords, kind ≠ .endOfInput := by decide
  cases h with
  | mark hkind => exact hmarks _ hkind
  | keyword hkind => exact hkeywords _ hkind
  | _ => simp [Lexeme.identifier, Lexeme.wholeNumber, Lexeme.decimalNumber, Lexeme.quotation]

theorem exists_of_mem_dropLast {token : Token} (h : token ∈ tokens.dropLast) :
    ∃ earlier later, tokens = earlier ++ token :: later ∧ later ≠ [] := by
  obtain ⟨earlier, later, hsplit⟩ := List.append_of_mem h
  have hne : tokens ≠ [] := by
    rintro rfl
    simp at h
  refine ⟨earlier, later ++ [tokens.getLast hne], ?_, by simp⟩
  rw [← List.cons_append, ← List.append_assoc, ← hsplit, List.dropLast_append_getLast hne]

theorem exact_of_layout (h : Layout .start source.toList tokens) : Exact source tokens := by
  have hplaced : ∀ {earlier token later}, tokens = earlier ++ token :: later → _ :=
    fun htokens => (htokens ▸ h).placed
  constructor
  case last =>
    rw [h.getLast?_eq, spanOf_after_start, byteLength_toList]
  case only =>
    intro token hmem
    obtain ⟨earlier, later, htokens, hlater⟩ := exists_of_mem_dropLast hmem
    obtain ⟨_, _, _, _, _, _, _, hlongest⟩ := hplaced htokens
    exact kind_ne_of_valid (hlongest.resolve_left hlater).valid
  case ordered => exact h.pairwise
  case slice =>
    intro token hmem
    obtain ⟨earlier, later, htokens⟩ := List.append_of_mem hmem
    obtain ⟨before, gap, after, hsource, _, _, hspan, _⟩ := hplaced htokens
    refine ⟨String.ofList (before ++ gap), String.ofList after, ?_, ?_⟩
    · exact String.toList_injective (by simp [hsource])
    · simpa [← byteLength_toList] using hspan
  case gap =>
    intro earlier token later htokens
    obtain ⟨before, gap, after, hsource, hbefore, hgap, hspan, _⟩ := hplaced htokens
    refine ⟨String.ofList before, String.ofList gap, token.lexeme ++ String.ofList after, ?_, ?_,
      ?_, by simpa using hgap⟩
    · exact String.toList_injective (by simp [hsource])
    · simpa [← byteLength_toList] using hbefore
    · simp [← byteLength_toList, hspan]
  case longest =>
    intro token hmem before after hsource hoffset
    obtain ⟨earlier, later, htokens, hlater⟩ := exists_of_mem_dropLast hmem
    obtain ⟨front, gap, rest, hchars, _, _, hspan, hlongest⟩ := hplaced htokens
    have hsame : before.toList ++ after.toList =
        (front ++ gap) ++ (token.lexeme.toList ++ rest) := by
      rw [← hchars, hsource, String.toList_append]
    obtain ⟨_, hafter⟩ := append_inj_of_byteLength hsame (by
      rw [byteLength_toList, hoffset, hspan])
    exact hafter ▸ hlongest.resolve_left hlater

theorem stopFrom_append (start : Nat) (earlier : List Token) (token : Token) :
    stopFrom start (earlier ++ [token]) = token.span.stop := by
  induction earlier generalizing start with
  | nil => rfl
  | cons first rest ih => exact ih _

theorem Exact.layout_drop (h : Exact source tokens) (later : List Token) :
    ∀ (earlier : List Token) (front rest : List Char), tokens = earlier ++ later → later ≠ [] →
      source.toList = front ++ rest → byteLength front = stopFrom 0 earlier →
      Layout (Position.start.after front) rest later := by
  induction later with
  | nil => exact fun _ _ _ _ hne => absurd rfl hne
  | cons token later ih =>
      intro earlier front rest htokens _ hsource hfront
      obtain ⟨before, gap, after, hchars, hbefore, hoffset, hgap⟩ := h.gap _ _ _ htokens
      have hsplit : before.toList ++ (gap.toList ++ after.toList) = front ++ rest := by
        rw [← hsource, hchars]
        simp
      obtain ⟨rfl, rfl⟩ := append_inj_of_byteLength hsplit (by
        rw [byteLength_toList, hbefore, hfront])
      cases later with
      | nil =>
          have hlast := h.last
          rw [htokens, List.getLast?_append_of_ne_nil _ (by simp)] at hlast
          obtain rfl := Option.some.inj hlast
          have hend : source.toList ++ [] = (before ++ gap).toList ++ after.toList := by
            rw [hchars, List.append_nil, String.toList_append]
          obtain ⟨hall, hnil⟩ := append_inj_of_byteLength hend (by
            rw [byteLength_toList, byteLength_toList, hoffset, endOfInput])
          have hlayout : Layout (Position.start.after before.toList) gap.toList _ := .finish hgap
          rw [← Position.after_append, ← String.toList_append, ← hall, spanOf_after_start,
            byteLength_toList] at hlayout
          rwa [← hnil, List.append_nil]
      | cons next later =>
          have hmem : token ∈ tokens := by simp [htokens]
          have hinner : token ∈ tokens.dropLast := by simp [htokens, List.dropLast_append_of_ne_nil]
          obtain ⟨before', after', hchars', hspan⟩ := h.slice token hmem
          have hsame : (before ++ gap).toList ++ after.toList =
              before'.toList ++ (token.lexeme ++ after').toList := by
            rw [← String.toList_append, ← hchars, hchars']
            simp
          obtain ⟨hbefore', hafter⟩ := append_inj_of_byteLength hsame (by
            rw [byteLength_toList, byteLength_toList, hoffset, hspan])
          have hlongest := h.longest token hinner (before ++ gap) after hchars hoffset
          rw [hafter, String.toList_append] at hlongest ⊢
          have hrest := ih (earlier ++ [token]) ((before ++ gap).toList ++ token.lexeme.toList)
            after'.toList (by simp [htokens]) (by simp) (by simp [hchars, hafter]) (by
              rw [stopFrom_append, Span.stop, hspan, byteLength_append, hbefore',
                byteLength_toList, byteLength_toList])
          rw [Position.after_append, String.toList_append, Position.after_append] at hrest
          have hlayout := Layout.token hgap hlongest hrest
          have htoken : token.toLexeme.toToken
              ((Position.start.after before.toList).after gap.toList) = token := by
            rw [← Position.after_append, ← String.toList_append, hbefore', Lexeme.toToken,
              spanOf_after_start]
            simp [toLexeme, byteLength_toList, ← hspan]
          rwa [htoken] at hlayout

theorem layout_of_exact (h : Exact source tokens) : Layout .start source.toList tokens := by
  have hne : tokens ≠ [] := by
    rintro rfl
    simpa using h.last
  exact h.layout_drop tokens [] [] _ rfl hne rfl rfl

/-- A source text is scanned to the tokens that it tells, and to no other list. It cannot be
scanned if it tells none. -/
theorem scan_eq_ok_iff_exact (source : String) (tokens : List Token) :
    scan source = .ok tokens ↔ Exact source tokens :=
  scanFrom_eq_ok_iff.trans ⟨exact_of_layout, layout_of_exact⟩

end Exact

end Token

end Scriptlet
