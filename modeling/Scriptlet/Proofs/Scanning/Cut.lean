import Scriptlet.Proofs.Scanning
import Scriptlet.Proofs.Tree.Shift

/-! Scanning a part of a text. A stretch that begins with a token and ends with one is scanned by
itself to the same tokens, only their places are counted from its own beginning. -/

namespace Scriptlet

/-- The text under a span, unless the span begins or ends inside a character. -/
def Span.slice? (span : Span) (source : String) : Option String := do
  let (_, rest) ← splitAtByte? source.toList span.offset
  let (inside, _) ← splitAtByte? rest span.len
  return String.ofList inside

theorem Span.slice?_eq {span : Span} {source : String} {before inside after : List Char}
    (hsource : source.toList = before ++ (inside ++ after))
    (hbefore : byteLength before = span.offset) (hinside : byteLength inside = span.len) :
    span.slice? source = some (String.ofList inside) := by
  rw [slice?, hsource, ← hbefore, ← hinside, splitAtByte?_append]
  simp [splitAtByte?_append]

theorem Lexeme.Longest.of_append {lexeme : Lexeme} {text rest : List Char}
    (h : lexeme.Longest (lexeme.text ++ (text ++ rest))) :
    lexeme.Longest (lexeme.text ++ text) :=
  ⟨h.valid, List.prefix_append _ _, fun other hvalid hother =>
    h.maximal other hvalid (List.append_assoc .. ▸ hother.trans (List.prefix_append _ rest))⟩

namespace Token

variable {place : Position} {source : List Char} {tokens earlier later : List Token}

theorem Layout.cut (h : Layout place source (earlier ++ later)) (hlater : later ≠ []) :
    ∃ text rest, source = text ++ rest ∧
      Layout place text (earlier ++ [endOfInput ((place.after text).spanOf 0)]) ∧
      (place.after text).offset = stopFrom place.offset earlier := by
  induction earlier generalizing place source with
  | nil => exact ⟨[], source, rfl, .finish .nil, rfl⟩
  | cons token earlier ih =>
      rcases h.first with ⟨hnil, _⟩ | ⟨gap, lexeme, rest, rfl, hgap, hlexeme, rfl, hrest⟩
      · simp [hlater] at hnil
      · obtain ⟨text, rest, rfl, hlayout, hstop⟩ := ih hrest
        have hplace : ((place.after gap).after lexeme.text).after text =
            place.after (gap ++ (lexeme.text ++ text)) := by
          simp [Position.after_append]
        rw [hplace] at hlayout hstop
        refine ⟨gap ++ (lexeme.text ++ text), rest, by simp, ?_, ?_⟩
        · exact .token hgap hlexeme.of_append hlayout
        · simpa [stopFrom, Position.after_offset] using hstop

theorem spanOf_after_shift {place start : Position} {bytes lines : Nat}
    (hoffset : place.offset = start.offset + bytes) (hline : place.line = start.line + lines)
    (text : List Char) (len : Nat) :
    (place.after text).spanOf len = ((start.after text).spanOf len).shift bytes lines := by
  simp only [Position.spanOf, Position.after_offset, Position.after_line, Span.shift, hoffset,
    hline, Span.mk.injEq, true_and]
  exact ⟨Nat.add_right_comm .., Nat.add_right_comm ..⟩

theorem Layout.unshift (h : Layout place source tokens) (start : Position) {bytes lines : Nat}
    (hoffset : place.offset = start.offset + bytes) (hline : place.line = start.line + lines) :
    ∃ moved, Layout start source moved ∧ tokens = moved.map (shift bytes lines) := by
  induction h generalizing start with
  | @finish place gap hgap =>
      refine ⟨_, .finish hgap, ?_⟩
      simp [shift, endOfInput, spanOf_after_shift hoffset hline]
  | @token place gap rest lexeme tokens hgap hlexeme _ ih =>
      obtain ⟨moved, hmoved, rfl⟩ := ih ((start.after gap).after lexeme.text)
        (by simp only [Position.after_offset]; omega) (by simp only [Position.after_line]; omega)
      refine ⟨_, .token hgap hlexeme hmoved, ?_⟩
      simp [Lexeme.toToken, shift, spanOf_after_shift hoffset hline]

theorem Layout.inside (h : Layout place source tokens) : ∃ finish,
    tokens = tokens.dropLast ++ [finish] ∧ finish.kind = .endOfInput ∧
      ∀ token ∈ tokens.dropLast, token.kind ≠ .endOfInput := by
  induction h with
  | finish _ => exact ⟨_, rfl, rfl, nofun⟩
  | @token place gap rest lexeme tokens _ hlexeme hrest ih =>
      obtain ⟨finish, htokens, hfinish, hkinds⟩ := ih
      have hdrop : ∀ token : Token, (token :: tokens).dropLast = token :: tokens.dropLast :=
        fun token => List.dropLast_cons_of_ne_nil hrest.ne_nil
      rw [hdrop]
      exact ⟨finish, congrArg (_ :: ·) htokens, hfinish,
        List.forall_mem_cons.mpr ⟨kind_ne_of_valid hlexeme.valid, hkinds⟩⟩

theorem Layout.trim {first : Token} (h : Layout place source (first :: tokens))
    (htokens : tokens ≠ []) : ∃ gap rest, source = gap ++ rest ∧
      Layout (place.after gap) rest (first :: tokens) ∧
      first.span.offset = (place.after gap).offset ∧ first.span.line = (place.after gap).line := by
  rcases h.first with ⟨hnil, _⟩ | ⟨gap, lexeme, rest, rfl, _, hlexeme, rfl, hrest⟩
  · exact absurd hnil htokens
  · exact ⟨gap, _, rfl, .token .nil hlexeme hrest, rfl, rfl⟩

/-- Some tokens in the middle of a source text have a text of their own there, which begins with
the first of them, ends with the last, and is scanned to the same tokens. -/
theorem Layout.excerpt {first : Token} {others : List Token}
    (h : Layout .start source (earlier ++ ((first :: others) ++ later))) (hlater : later ≠ []) :
    ∃ before text after, source = before ++ (text ++ after) ∧
      byteLength before = first.span.offset ∧
      first.span.offset + byteLength text = stopFrom 0 (first :: others) ∧
      ∃ moved finish, Layout .start text (moved ++ [finish]) ∧ finish.kind = .endOfInput ∧
        first :: others = moved.map (shift first.span.offset (first.span.line - 1)) := by
  obtain ⟨front, rest, rfl, hlayout, _⟩ := h.drop (by simp)
  obtain ⟨gap, rest, rfl, hlayout, hoffset, hline⟩ := hlayout.trim (by simp [hlater])
  rw [List.append_eq, ← List.cons_append] at hlayout
  obtain ⟨text, rest, rfl, hcut, hstop⟩ := hlayout.cut hlater
  rw [Position.after_offset, ← hoffset] at hstop
  rw [← Position.after_append] at hoffset hline hcut
  have hlines : first.span.line = 1 + (first.span.line - 1) := by
    have hcount : first.span.line = 1 + _ := hline.trans (Position.after_line _ _)
    omega
  obtain ⟨moved, hmoved, htokens⟩ := hcut.unshift .start (hoffset.symm.trans (Nat.zero_add _).symm)
    (hline.symm.trans hlines)
  obtain ⟨moved, ends, rfl, hothers, hends⟩ := List.map_eq_append_iff.mp htokens.symm
  obtain ⟨finish, rfl, hfinish⟩ := List.map_eq_singleton_iff.mp hends
  refine ⟨front ++ gap, text, rest, by simp, ?_, hstop, moved, finish, hmoved, ?_, hothers.symm⟩
  · rw [hoffset, Position.after_offset, Position.start, Nat.zero_add]
  · rw [← kind_shift, hfinish]
    rfl

end Token

end Scriptlet
