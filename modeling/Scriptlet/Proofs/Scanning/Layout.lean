import Scriptlet.Proofs.Scanning.Lexemes

/-! How a text is laid out: gaps and lexemes in turn, and the places of the tokens in it. A text
is scanned to the tokens of its layout, and it has a layout whenever it can be scanned. -/

namespace Scriptlet

/-- Blanks and comments. A comment runs up to a line feed, which closes it; only at the end of a
text the line feed may be missing. -/
inductive Gap (atEnd : Bool) : List Char → Prop
  | nil : Gap atEnd []
  | blank {c : Char} {text : List Char} (h : isBlank c) (hrest : Gap atEnd text) :
      Gap atEnd (c :: text)
  | comment {body text : List Char} (h : '\n' ∉ body) (hrest : Gap atEnd text) :
      Gap atEnd (';' :: ';' :: (body ++ '\n' :: text))
  | unclosed {body : List Char} (h : '\n' ∉ body) (hend : atEnd) : Gap atEnd (';' :: ';' :: body)

def beginsGap : List Char → Bool
  | [] => false
  | c :: rest => (gapStep false c rest).isSome

section SplitGap

variable {atEnd : Bool} {gap rest body text source : List Char}

theorem splitGap_blank {c : Char} (h : isBlank c) (text : List Char) :
    splitGap false (c :: text) = (c :: (splitGap false text).1, (splitGap false text).2) := by
  simp [splitGap, gapStep, h]

theorem splitGap_open (text : List Char) :
    splitGap false (';' :: ';' :: text) =
      (';' :: ';' :: (splitGap true text).1, (splitGap true text).2) := rfl

theorem splitGap_comment (h : '\n' ∉ body) (text : List Char) :
    splitGap true (body ++ '\n' :: text) =
      (body ++ '\n' :: (splitGap false text).1, (splitGap false text).2) := by
  induction body with
  | nil => simp [splitGap, gapStep]
  | cons c body ih =>
      rw [List.mem_cons, not_or] at h
      simp [splitGap, gapStep, bne_iff_ne.mpr (Ne.symm h.1), ih h.2]

theorem splitGap_unclosed (h : '\n' ∉ body) : splitGap true body = (body, []) := by
  induction body with
  | nil => rfl
  | cons c body ih =>
      rw [List.mem_cons, not_or] at h
      simp [splitGap, gapStep, bne_iff_ne.mpr (Ne.symm h.1), ih h.2]

theorem splitGap_of_gap (h : Gap atEnd gap) (hend : atEnd → rest = [])
    (hrest : beginsGap rest = false) : splitGap false (gap ++ rest) = (gap, rest) := by
  induction h with
  | nil =>
      cases rest with
      | nil => rfl
      | cons c rest =>
          rw [beginsGap, Option.isSome_eq_false_iff, Option.isNone_iff_eq_none] at hrest
          simp [splitGap, hrest]
  | blank hc _ ih => simp only [List.cons_append, splitGap_blank hc, ih]
  | comment hbody _ ih =>
      simp only [List.cons_append, List.append_assoc, splitGap_open, splitGap_comment hbody, ih]
  | unclosed hbody hatEnd =>
      rw [hend hatEnd, List.append_nil, splitGap_open, splitGap_unclosed hbody]

theorem gap_of_splitGap : (source : List Char) →
    Gap (splitGap false source).2.isEmpty (splitGap false source).1
  | [] => .nil
  | c :: rest => by
      cases hstep : gapStep false c rest with
      | none =>
          simp only [splitGap, hstep]
          exact .nil
      | some goesOn =>
          by_cases hblank : isBlank c
          · rw [splitGap_blank hblank]
            exact .blank hblank (gap_of_splitGap rest)
          obtain ⟨text, rfl, rfl⟩ : ∃ text, c = ';' ∧ rest = ';' :: text := by
            cases rest with
            | nil => simp [gapStep, hblank] at hstep
            | cons d text =>
                simp only [gapStep, hblank] at hstep
                simp_all
          rw [splitGap_open]
          by_cases hline : '\n' ∈ text
          · obtain ⟨body, tail, rfl, hbody⟩ := List.eq_append_cons_of_mem hline
            rw [splitGap_comment hbody]
            exact .comment hbody (gap_of_splitGap tail)
          · rw [splitGap_unclosed hline]
            exact .unclosed hline rfl
termination_by source => source.length

theorem beginsGap_splitGap (inComment : Bool) (source : List Char) :
    beginsGap (splitGap inComment source).2 = false := by
  induction source generalizing inComment with
  | nil => rfl
  | cons c rest ih =>
      unfold splitGap
      split
      · rename_i hstep
        cases inComment with
        | false => simp [beginsGap, hstep]
        | true => simp [gapStep] at hstep
      · exact ih _

end SplitGap

theorem Lexeme.split?_of_gap {c : Char} (h : isBlank c ∨ c = ';') (rest : List Char) :
    split? (c :: rest) = none := by
  simp only [isBlank, Bool.or_eq_true, beq_iff_eq] at h
  rcases h with (((rfl | rfl) | rfl) | rfl) | rfl <;> cases rest <;> rfl

theorem Lexeme.Valid.not_beginsGap {lexeme : Lexeme} (h : lexeme.Valid) (rest : List Char) :
    beginsGap (lexeme.text ++ rest) = false := by
  obtain ⟨c, text, htext⟩ := List.exists_cons_of_ne_nil h.text_ne_nil
  have hsplit := split?_text h
  rw [htext] at hsplit ⊢
  simp only [List.cons_append, beginsGap, gapStep]
  have hplain : ¬(isBlank c ∨ c = ';') := fun hc => by simp [split?_of_gap hc] at hsplit
  rw [not_or] at hplain
  simp [hplain.1, hplain.2]

namespace Token

/-- The tokens of a text that begins at `place`. -/
inductive Layout : Position → List Char → List Token → Prop
  | finish {place : Position} {gap : List Char} (hgap : Gap true gap) :
      Layout place gap [endOfInput ((place.after gap).spanOf 0)]
  | token {place : Position} {gap rest : List Char} {lexeme : Lexeme} {tokens : List Token}
      (hgap : Gap false gap) (hlexeme : lexeme.Longest (lexeme.text ++ rest))
      (hrest : Layout ((place.after gap).after lexeme.text) rest tokens) :
      Layout place (gap ++ (lexeme.text ++ rest)) (lexeme.toToken (place.after gap) :: tokens)

section ScanFrom

variable {place : Position} {source : List Char} {tokens : List Token}

theorem scanFrom_of_gap (h : (splitGap false source).2 = []) :
    scanFrom place source =
      .ok [endOfInput ((place.after (splitGap false source).1).spanOf 0)] := by
  rw [scanFrom]
  dsimp only
  split
  · rfl
  · simp_all

theorem scanFrom_of_lexeme {c : Char} {rest : List Char}
    (h : (splitGap false source).2 = c :: rest) :
    scanFrom place source =
      match Lexeme.split? (c :: rest) with
      | none => .error (LexError.atHead (place.after (splitGap false source).1) c rest)
      | some (lexeme, after) =>
          (scanFrom ((place.after (splitGap false source).1).after lexeme.text) after).map
            (lexeme.toToken (place.after (splitGap false source).1) :: ·) := by
  rw [scanFrom]
  dsimp only
  split
  · simp_all
  · rename_i d others hgap
    obtain ⟨rfl, rfl⟩ := List.cons.inj (hgap.symm.trans h)
    split
    · rename_i hsplit
      rw [hsplit]
    · rename_i lexeme after hsplit
      rw [hsplit]
      dsimp only
      split <;> rename_i hrest <;> rw [hrest] <;> rfl

theorem scanFrom_of_longest {gap rest : List Char} {lexeme : Lexeme} (hgap : Gap false gap)
    (hlexeme : lexeme.Longest (lexeme.text ++ rest)) :
    scanFrom place (gap ++ (lexeme.text ++ rest)) =
      (scanFrom ((place.after gap).after lexeme.text) rest).map
        (lexeme.toToken (place.after gap) :: ·) := by
  have hsplit := splitGap_of_gap hgap nofun (hlexeme.valid.not_beginsGap rest)
  obtain ⟨c, text, htext⟩ := List.exists_cons_of_ne_nil hlexeme.valid.text_ne_nil
  have hread := Lexeme.split?_eq_some_iff.mpr ⟨hlexeme, rfl⟩
  rw [htext, List.cons_append] at hread
  rw [scanFrom_of_lexeme (by rw [hsplit, htext, List.cons_append]), hread, hsplit]

theorem layout_of_scanFrom {place : Position} {source : List Char} {tokens : List Token}
    (h : scanFrom place source = .ok tokens) : Layout place source tokens := by
  have hgap := gap_of_splitGap source
  have hsource := splitGap_append false source
  cases hrest : (splitGap false source).2 with
  | nil =>
      rw [scanFrom_of_gap hrest] at h
      obtain rfl := Except.ok.inj h
      rw [hrest] at hgap hsource
      rw [List.append_nil] at hsource
      rw [hsource] at hgap ⊢
      exact .finish hgap
  | cons c rest =>
      rw [scanFrom_of_lexeme hrest] at h
      rw [hrest] at hgap hsource
      split at h
      · simp at h
      · rename_i lexeme after hsplit
        obtain ⟨hlongest, happend⟩ := Lexeme.split?_eq_some_iff.mp hsplit
        cases htail : scanFrom ((place.after (splitGap false source).1).after lexeme.text)
            after with
        | error e => simp [htail, Except.map] at h
        | ok tail =>
            rw [htail] at h
            obtain rfl := Except.ok.inj h
            have hshorter : after.length < source.length := by
              have hne := List.length_pos_iff.mpr hlongest.valid.text_ne_nil
              rw [← hsource, happend]
              simp only [List.length_append]
              omega
            have hlayout := Layout.token hgap (happend ▸ hlongest) (layout_of_scanFrom htail)
            rwa [← happend, hsource] at hlayout
termination_by source.length

theorem scanFrom_of_layout (h : Layout place source tokens) :
    scanFrom place source = .ok tokens := by
  induction h with
  | @finish place gap hgap =>
      have hsplit : splitGap false (gap ++ []) = (gap, []) :=
        splitGap_of_gap hgap (fun _ => rfl) rfl
      rw [List.append_nil] at hsplit
      rw [scanFrom_of_gap (by rw [hsplit]), hsplit]
  | @token place gap rest lexeme tokens hgap hlexeme _ ih =>
      rw [scanFrom_of_longest hgap hlexeme, ih]
      rfl

/-- A text is scanned to the tokens of its layout, and only if it has one. -/
theorem scanFrom_eq_ok_iff : scanFrom place source = .ok tokens ↔ Layout place source tokens :=
  ⟨layout_of_scanFrom, scanFrom_of_layout⟩

end ScanFrom

end Token

end Scriptlet
