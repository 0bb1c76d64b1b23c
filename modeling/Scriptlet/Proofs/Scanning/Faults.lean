import Scriptlet.Proofs.Scanning

/-! Where scanning fails: at the first place that no gap and no lexeme leads past. The text in front
of it can be read, and what is told of the place hangs on that text and on the character there. -/

namespace Scriptlet

theorem Position.after_start_column (text : List Char) :
    (start.after text).column = byteLength (text.rtakeWhile (· != '\n')) + 1 := by
  induction text using List.reverseRecOn with
  | nil => rfl
  | append_singleton text c ih =>
      rw [after_append, List.rtakeWhile_concat]
      by_cases hline : c = '\n'
      · simp [hline, after, step, byteLength]
      · simp only [after, List.foldl_cons, List.foldl_nil] at ih ⊢
        rw [step, if_neg hline, ih, if_pos (bne_iff_ne.mpr hline), byteLength_append]
        simp only [byteLength]
        omega

namespace Token

/-- The front of a text is made of gaps and lexemes. Each lexeme is the longest one that begins at
its place, whatever part of the text it would take. -/
inductive Reads : List Char → List Char → Prop
  | gap {gap rest : List Char} (hgap : Gap false gap) : Reads gap rest
  | lexeme {gap front rest : List Char} {lexeme : Lexeme} (hgap : Gap false gap)
      (hlexeme : lexeme.Longest (lexeme.text ++ (front ++ rest))) (hfront : Reads front rest) :
      Reads (gap ++ (lexeme.text ++ front)) rest

/-- No gap and no lexeme begins with the character. -/
structure Stuck (c : Char) (rest : List Char) : Prop where
  blank : ¬isBlank c
  comment : ¬[';', ';'] <+: c :: rest
  lexeme : ∀ lexeme : Lexeme, lexeme.Valid → ¬lexeme.text <+: c :: rest

/-- A source text can be read as far as some character, and no further. -/
structure BreaksOff (source : String) (front : List Char) (c : Char) (rest : List Char) :
    Prop where
  split : source.toList = front ++ c :: rest
  reads : Reads front (c :: rest)
  stuck : Stuck c rest

section ScanFrom

variable {place : Position} {front rest : List Char} {c : Char}

theorem beginsGap_eq_false_iff :
    beginsGap (c :: rest) = false ↔ ¬isBlank c ∧ ¬[';', ';'] <+: c :: rest := by
  cases rest <;> simp [beginsGap, gapStep]
  all_goals grind

theorem scanFrom_of_reads {source : List Char} (h : Reads front source) (place : Position)
    (hsource : source = c :: rest) (hstuck : Stuck c rest) : scanFrom place (front ++ source) =
      .error (LexError.atHead (place.after front) c rest) := by
  induction h generalizing place with
  | gap hgap =>
      obtain rfl := hsource
      have hbegins := beginsGap_eq_false_iff.mpr ⟨hstuck.blank, hstuck.comment⟩
      have hsplit := splitGap_of_gap hgap nofun hbegins
      rw [scanFrom_of_lexeme (congrArg Prod.snd hsplit),
        Lexeme.split?_eq_none_iff.mpr hstuck.lexeme, hsplit]
  | lexeme hgap hlexeme _ ih =>
      rw [List.append_assoc, List.append_assoc, scanFrom_of_longest hgap hlexeme, ih _ hsource,
        Position.after_append, Position.after_append]
      rfl

theorem reads_of_scanFrom {place : Position} {source : List Char} {e : LexError}
    (h : scanFrom place source = .error e) : ∃ front c rest, source = front ++ c :: rest ∧
      Reads front (c :: rest) ∧ Stuck c rest ∧
      e = LexError.atHead (place.after front) c rest := by
  have hgap := gap_of_splitGap source
  have hsource := splitGap_append false source
  have hbegins := beginsGap_splitGap false source
  cases hrest : (splitGap false source).2 with
  | nil =>
      rw [scanFrom_of_gap hrest] at h
      exact absurd h nofun
  | cons c rest =>
      rw [scanFrom_of_lexeme hrest] at h
      rw [hrest] at hgap hsource hbegins
      cases hsplit : Lexeme.split? (c :: rest) with
      | none =>
          obtain ⟨hblank, hcomment⟩ := beginsGap_eq_false_iff.mp hbegins
          rw [hsplit] at h
          exact ⟨_, c, rest, hsource.symm, .gap hgap,
            ⟨hblank, hcomment, Lexeme.split?_eq_none_iff.mp hsplit⟩, (Except.error.inj h).symm⟩
      | some found =>
          obtain ⟨lexeme, after⟩ := found
          obtain ⟨hlongest, happend⟩ := Lexeme.split?_eq_some_iff.mp hsplit
          have hshorter : after.length < source.length := by
            rw [← hsource, List.length_append]
            have := Lexeme.split?_shorter hsplit
            omega
          rw [hsplit] at h
          dsimp only at h
          have hafter : scanFrom ((place.after (splitGap false source).1).after lexeme.text) after =
              .error e := by
            cases hread : scanFrom ((place.after (splitGap false source).1).after lexeme.text)
                after with
            | ok tokens => simp [hread, Except.map] at h
            | error e' => simpa [hread, Except.map] using h
          obtain ⟨front, d, more, rfl, hreads, hstuck, he⟩ := reads_of_scanFrom hafter
          refine ⟨_, d, more, ?_, .lexeme hgap (happend ▸ hlongest) hreads, hstuck, ?_⟩
          · exact hsource.symm.trans (by rw [happend]; simp)
          · rw [he, Position.after_append, Position.after_append]
termination_by source.length

end ScanFrom

section Scan

variable {source : String} {front front' rest rest' : List Char} {c c' : Char}

theorem BreaksOff.scan_eq (h : BreaksOff source front c rest) :
    scan source = .error (LexError.atHead (Position.start.after front) c rest) := by
  rw [scan, h.split]
  exact scanFrom_of_reads h.reads .start rfl h.stuck

@[simp] theorem offset_atHead (place : Position) (c : Char) (rest : List Char) :
    (LexError.atHead place c rest).span.offset = place.offset := by
  unfold LexError.atHead
  split
  · rfl
  · split <;> rfl

/-- There is one error at most, so a text breaks off in one place at most. -/
theorem BreaksOff.unique (h : BreaksOff source front c rest)
    (h' : BreaksOff source front' c' rest') : front = front' := by
  have herror := Except.error.inj (h.scan_eq.symm.trans h'.scan_eq)
  have hoffset := congrArg (fun e : LexError => e.span.offset) herror
  simp only [offset_atHead, Position.after_offset] at hoffset
  exact (append_inj_of_byteLength (h.split.symm.trans h'.split) (Nat.add_left_cancel hoffset)).1

/-- A source text cannot be scanned just if it breaks off somewhere. That is in one place only, and
the error is told of it: what it says and how long its span is hang on the character there, its
line and column on the text in front. -/
theorem scan_fails_iff (source : String) :
    ((∃ e, scan source = .error e) ↔ ∃ front c rest, BreaksOff source front c rest) ∧
    (∀ front c rest front' c' rest', BreaksOff source front c rest →
      BreaksOff source front' c' rest' → front = front') ∧
    ∀ e front c rest, scan source = .error e → BreaksOff source front c rest →
      e.fault.message =
          (if c = '"' then "unterminated string"
          else if c = ';' then "unexpected ';' (line comments start with ';;')"
          else s!"unexpected character '{c}'") ∧
        e.span = ⟨byteLength front,
          if c = '"' then byteLength (c :: rest) else if c = ';' then 1 else c.utf8Size,
          1 + front.count '\n'⟩ ∧
        e.column = byteLength (front.rtakeWhile (· != '\n')) + 1 := by
  refine ⟨⟨?_, ?_⟩, fun _ _ _ _ _ _ h h' => h.unique h', ?_⟩
  · rintro ⟨e, herror⟩
    obtain ⟨front, c, rest, hsplit, hreads, hstuck, -⟩ := reads_of_scanFrom herror
    exact ⟨front, c, rest, hsplit, hreads, hstuck⟩
  · rintro ⟨front, c, rest, h⟩
    exact ⟨_, h.scan_eq⟩
  · intro e front c rest herror h
    obtain rfl := Except.error.inj (h.scan_eq.symm.trans herror)
    simp only [LexError.atHead]
    split
    · exact ⟨rfl, spanOf_after_start front _, Position.after_start_column front⟩
    · split
      · exact ⟨rfl, spanOf_after_start front _, Position.after_start_column front⟩
      · exact ⟨rfl, spanOf_after_start front _, Position.after_start_column front⟩

/-- A sign that begins nothing stands behind a text of two lines and a comment with a quote. -/
theorem scan_fails_at_sign : ∃ e, scan "\"ä\n\" ;; \"\n  €x" = .error e ∧
    e.fault.message = "unexpected character '€'" ∧ e.span = ⟨13, 3, 3⟩ ∧ e.column = 3 := by
  have hquoted : (Lexeme.quotation ['ä', '\n']).Valid := .quoted (by decide)
  have hbody : '\n' ∉ [' ', '"'] := by decide
  have hgap : Gap false [' ', ';', ';', ' ', '"', '\n', ' ', ' '] :=
    .blank (by decide) (.comment hbody (.blank (by decide) (.blank (by decide) .nil)))
  have hreads : Reads ['"', 'ä', '\n', '"', ' ', ';', ';', ' ', '"', '\n', ' ', ' '] ['€', 'x'] :=
    .lexeme .nil (hquoted.longest fun _ _ => Bool.false_ne_true) (.gap hgap)
  have hstuck : Stuck '€' ['x'] :=
    ⟨by decide, by decide, Lexeme.split?_eq_none_iff.mp (by decide)⟩
  have hbreaks : BreaksOff "\"ä\n\" ;; \"\n  €x" _ '€' ['x'] := ⟨by decide, hreads, hstuck⟩
  obtain ⟨hfails, -, htold⟩ := scan_fails_iff "\"ä\n\" ;; \"\n  €x"
  obtain ⟨e, herror⟩ := hfails.mpr ⟨_, _, _, hbreaks⟩
  obtain ⟨hmessage, hspan, hcolumn⟩ := htold e _ _ _ herror hbreaks
  exact ⟨e, herror, hmessage.trans (by decide), hspan.trans (by decide), hcolumn.trans (by decide)⟩

end Scan

end Token

end Scriptlet
