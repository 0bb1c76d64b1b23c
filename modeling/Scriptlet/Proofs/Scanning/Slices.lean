import Scriptlet.Proofs.Scanning.Cut
import Scriptlet.Proofs.Scanning.Faults

/-! Scanning by bytes. The text is kept, and numbers of bytes say where the reading is and what is
cut out. A cut that does not begin and end between two characters of the text is a trouble of its
own, and so is a loop that is not done in the turns it is given; neither comes about, so scanning by
bytes is scanning. -/

namespace Scriptlet

inductive ScanTrouble where
  | fault (error : LexError)
  | outOfBounds
  | unending

abbrev Scan := Except ScanTrouble

namespace Scan

def textFrom (source : String) (start : Nat) : Scan (List Char) :=
  match splitAtByte? source.toList start with
  | some (_, rest) => .ok rest
  | none => .error .outOfBounds

def slice (source : String) (start stop : Nat) : Scan String :=
  if start ≤ stop then
    match Span.slice? ⟨start, stop - start, 1⟩ source with
    | some text => .ok text
    | none => .error .outOfBounds
  else .error .outOfBounds

/-- Where the gap ends that begins at a byte. A turn passes blanks and, if one begins there, a
comment up to the end of its line; the last turn is one that passes nothing. -/
def gapEnd (source : String) : Nat → Nat → Scan Nat
  | 0, _ => .error .unending
  | turns + 1, start => do
      let offset := start + byteLength ((← textFrom source start).takeWhile isBlank)
      let rest ← textFrom source offset
      if [';', ';'] <+: rest then
        gapEnd source turns (offset + byteLength (rest.takeWhile (· != '\n')))
      else if offset = start then return start
      else gapEnd source turns offset

/-- A line, up to some byte of it, and the byte at which it begins. -/
structure LineCount where
  offset : Nat
  line : Nat
  lineStart : Nat

namespace LineCount

def start : LineCount := ⟨0, 1, 0⟩

def step (count : LineCount) (c : Char) : LineCount :=
  let offset := count.offset + c.utf8Size
  if c = '\n' then ⟨offset, count.line + 1, offset⟩
  else ⟨offset, count.line, count.lineStart⟩

def upTo (source : String) (count : LineCount) (offset : Nat) : Scan LineCount :=
  if count.offset < offset then do
    return (← slice source count.offset offset).toList.foldl step count
  else return count

def column (count : LineCount) (offset : Nat) : Scan Nat :=
  if count.lineStart ≤ offset then return offset - count.lineStart + 1 else .error .outOfBounds

end LineCount

def tokenAt (source : String) (start : Nat) (lexeme : Lexeme) (count : LineCount) :
    Scan Token := do
  let stop := start + byteLength lexeme.text
  let text ← slice source start stop
  return ⟨lexeme.kind, text, lexeme.payload, ⟨start, stop - start, count.line⟩⟩

def errorAt (source : String) (start : Nat) (count : LineCount) : Scan LexError := do
  let count ← count.upTo source start
  let column ← count.column start
  match ← textFrom source start with
  | [] => .error .outOfBounds
  | c :: rest => return LexError.atHead ⟨start, count.line, column⟩ c rest

/-- The tokens from a byte on, one in each turn. -/
def tokensFrom (source : String) (turns : Nat) :
    Nat → Nat → LineCount → Scan (List Token)
  | 0, _, _ => .error .unending
  | more + 1, offset, count => do
      let start ← gapEnd source turns offset
      let rest ← textFrom source start
      if rest.isEmpty then
        let count ← count.upTo source source.utf8ByteSize
        return [.endOfInput ⟨source.utf8ByteSize, 0, count.line⟩]
      match Lexeme.split? rest with
      | some (lexeme, _) =>
          let count ← count.upTo source start
          let token ← tokenAt source start lexeme count
          return token :: (← tokensFrom source turns more token.span.stop count)
      | none => throw (.fault (← errorAt source start count))

/-- The tokens of a text, if every loop is done in so many turns. -/
def tokens (source : String) (turns : Nat) : Scan (List Token) :=
  tokensFrom source turns turns 0 .start

section Cuts

variable {source : String} {before inside after : List Char}

theorem textFrom_eq (h : source.toList = before ++ after) :
    textFrom source (byteLength before) = pure after := by
  rw [textFrom, h, splitAtByte?_append]
  rfl

theorem slice_eq (h : source.toList = before ++ (inside ++ after)) :
    slice source (byteLength before) (byteLength (before ++ inside)) =
      pure (String.ofList inside) := by
  have hlength := byteLength_append before inside
  have hlen : byteLength inside = byteLength (before ++ inside) - byteLength before := by omega
  rw [slice, if_pos (by omega), Span.slice?_eq h rfl hlen]
  rfl

end Cuts

section Gaps

variable {text : List Char}

theorem splitGap_blanks {blanks : List Char} (h : ∀ c ∈ blanks, isBlank c) (rest : List Char) :
    (splitGap false (blanks ++ rest)).1 = blanks ++ (splitGap false rest).1 := by
  induction blanks with
  | nil => rfl
  | cons c blanks ih =>
      obtain ⟨hc, hblanks⟩ := List.forall_mem_cons.mp h
      rw [List.cons_append, splitGap_blank hc, ih hblanks, List.cons_append]

theorem splitGap_inComment (text : List Char) :
    (splitGap true text).1 =
      text.takeWhile (· != '\n') ++ (splitGap false (text.dropWhile (· != '\n'))).1 := by
  induction text with
  | nil => rfl
  | cons c text ih =>
      by_cases hc : c = '\n'
      · subst hc
        rw [List.takeWhile_cons_of_neg (by simp), List.dropWhile_cons_of_neg (by simp),
          List.nil_append, splitGap_blank (by decide)]
        rfl
      · have hcomment : splitGap true (c :: text) =
            (c :: (splitGap true text).1, (splitGap true text).2) := by
          simp [splitGap, gapStep, bne_iff_ne.mpr hc]
        rw [hcomment, List.takeWhile_cons_of_pos (by simpa using hc),
          List.dropWhile_cons_of_pos (by simpa using hc), ih, List.cons_append]

theorem splitGap_semicolons (h : [';', ';'] <+: text) :
    (splitGap false text).1 =
      text.takeWhile (· != '\n') ++ (splitGap false (text.dropWhile (· != '\n'))).1 := by
  obtain ⟨body, rfl⟩ := h
  have hopen := splitGap_open body
  simp only [List.cons_append, List.nil_append, hopen, splitGap_inComment]
  rfl

theorem splitGap_closed (h : ∀ c ∈ text.head?, ¬isBlank c) (hcomment : ¬[';', ';'] <+: text) :
    (splitGap false text).1 = [] := by
  cases text with
  | nil => rfl
  | cons c rest =>
      have hclosed := Token.beginsGap_eq_false_iff.mpr ⟨h c rfl, hcomment⟩
      exact congrArg Prod.fst (splitGap_of_gap (.nil : Gap false []) nofun hclosed)

theorem byteLength_eq_zero : byteLength text = 0 ↔ text = [] := by
  cases text with
  | nil => simp [byteLength]
  | cons c rest =>
      have := c.utf8Size_pos
      simp only [byteLength, reduceCtorEq, iff_false]
      omega

theorem gapEnd_eq {source : String} {before text : List Char} {turns : Nat}
    (h : source.toList = before ++ text) (hturns : byteLength text < turns) :
    gapEnd source turns (byteLength before) =
      pure (byteLength (before ++ (splitGap false text).1)) := by
  induction turns generalizing before text with
  | zero => exact absurd hturns (Nat.not_lt_zero _)
  | succ turns ih =>
      obtain ⟨blanks, hblanks⟩ : ∃ blanks, text.takeWhile isBlank = blanks := ⟨_, rfl⟩
      obtain ⟨rest, hrest⟩ : ∃ rest, text.dropWhile isBlank = rest := ⟨_, rfl⟩
      have htext : text = blanks ++ rest := by
        rw [← hblanks, ← hrest, List.takeWhile_append_dropWhile]
      have hgap : (splitGap false text).1 = blanks ++ (splitGap false rest).1 := by
        rw [htext]
        exact splitGap_blanks (fun c hc => List.mem_takeWhile_imp (hblanks ▸ hc)) rest
      have hsource : source.toList = (before ++ blanks) ++ rest := by
        rw [h, htext, List.append_assoc]
      have hlength := byteLength_append blanks rest
      have hturn : gapEnd source (turns + 1) (byteLength before) =
          if [';', ';'] <+: rest then
            gapEnd source turns (byteLength (before ++ blanks ++ rest.takeWhile (· != '\n')))
          else if byteLength (before ++ blanks) = byteLength before then
            pure (byteLength before)
          else gapEnd source turns (byteLength (before ++ blanks)) := by
        simp only [gapEnd, textFrom_eq h, pure_bind, hblanks, ← byteLength_append,
          textFrom_eq hsource]
      rw [hturn, hgap, ← List.append_assoc]
      split
      · rename_i hcomment
        have hlines : rest.takeWhile (· != '\n') ++ rest.dropWhile (· != '\n') = rest :=
          List.takeWhile_append_dropWhile
        have hpassed := congrArg byteLength hlines
        have hpos : byteLength (rest.takeWhile (· != '\n')) ≠ 0 := by
          obtain ⟨body, rfl⟩ := hcomment
          exact fun hzero => nomatch byteLength_eq_zero.mp hzero
        rw [byteLength_append] at hpassed
        rw [splitGap_semicolons hcomment, ← List.append_assoc]
        exact ih (by rw [List.append_assoc, hlines, hsource]) (by rw [htext] at hturns; omega)
      · rename_i hcomment
        split
        · rename_i hsame
          rw [byteLength_append] at hsame
          have hnil : blanks = [] := byteLength_eq_zero.mp (by omega)
          have hhead : ∀ c ∈ rest.head?, ¬isBlank c := fun c hc => by
            have hstop := List.head?_dropWhile_not isBlank text
            rw [hrest, Option.mem_def.mp hc] at hstop
            simp [hstop]
          rw [splitGap_closed hhead hcomment, hnil, List.append_nil, List.append_nil]
        · rename_i hmoved
          have hpos : byteLength blanks ≠ 0 := fun hzero => hmoved (by
            rw [byteLength_append, hzero, Nat.add_zero])
          exact ih hsource (by rw [htext] at hturns; omega)

end Gaps

section Lines

variable {source : String} {passed skipped after : List Char}

def LineCount.at (place : Position) : LineCount :=
  ⟨place.offset, place.line, place.offset + 1 - place.column⟩

theorem column_bounds (text : List Char) : 1 ≤ (Position.start.after text).column ∧
    (Position.start.after text).column ≤ byteLength text + 1 := by
  have hlines : byteLength (text.rdropWhile (· != '\n')) +
      byteLength (text.rtakeWhile (· != '\n')) = byteLength text := by
    rw [← byteLength_append, List.rdropWhile_append_rtakeWhile]
  rw [Position.after_start_column]
  omega

theorem offset_after_start (text : List Char) :
    (Position.start.after text).offset = byteLength text := by
  rw [Position.after_offset, Position.start, Nat.zero_add]

theorem LineCount.foldl_step (text more : List Char) :
    more.foldl step (.at (Position.start.after text)) =
      .at (Position.start.after (text ++ more)) := by
  induction more generalizing text with
  | nil => rw [List.append_nil, List.foldl_nil]
  | cons c more ih =>
      have hstep : step (.at (Position.start.after text)) c =
          .at (Position.start.after (text ++ [c])) := by
        have hbounds := column_bounds text
        have hoffset := offset_after_start text
        rw [Position.after_append]
        simp only [Position.after, List.foldl_cons, List.foldl_nil] at hbounds hoffset ⊢
        simp only [LineCount.at, step, Position.step]
        split
        · rfl
        · simp only [mk.injEq, true_and]
          omega
      rw [List.foldl_cons, hstep, ih, List.append_assoc]
      rfl

theorem LineCount.upTo_eq (h : source.toList = passed ++ (skipped ++ after)) :
    upTo source (.at (Position.start.after passed)) (byteLength (passed ++ skipped)) =
      pure (.at (Position.start.after (passed ++ skipped))) := by
  have hoffset : (LineCount.at (Position.start.after passed)).offset = byteLength passed :=
    offset_after_start passed
  rw [upTo, hoffset, byteLength_append]
  split
  · rw [← byteLength_append, slice_eq h, pure_bind, String.toList_ofList, foldl_step]
  · have hnil : skipped = [] := byteLength_eq_zero.mp (by omega)
    rw [hnil, List.append_nil]

theorem LineCount.column_eq (text : List Char) :
    column (.at (Position.start.after text)) (byteLength text) =
      pure (Position.start.after text).column := by
  have hbounds := column_bounds text
  simp only [column, LineCount.at, offset_after_start]
  rw [if_pos (by omega)]
  congr 1
  omega

end Lines

section Tokens

variable {source : String} {passed skipped before after text : List Char} {turns more : Nat}

theorem tokenAt_eq {lexeme : Lexeme} (h : source.toList = before ++ (lexeme.text ++ after)) :
    tokenAt source (byteLength before) lexeme (.at (Position.start.after before)) =
      pure (lexeme.toToken (Position.start.after before)) := by
  rw [tokenAt, ← byteLength_append, slice_eq h, pure_bind, byteLength_append,
    Nat.add_sub_cancel_left, Lexeme.toToken, Position.spanOf, offset_after_start]
  rfl

theorem stop_toToken (lexeme : Lexeme) (before : List Char) :
    (lexeme.toToken (Position.start.after before)).span.stop =
      byteLength (before ++ lexeme.text) := by
  rw [byteLength_append, ← offset_after_start before]
  rfl

theorem errorAt_eq {c : Char} {rest : List Char}
    (h : source.toList = (passed ++ skipped) ++ c :: rest) :
    errorAt source (byteLength (passed ++ skipped)) (.at (Position.start.after passed)) =
      pure (LexError.atHead (Position.start.after (passed ++ skipped)) c rest) := by
  have hplace : (⟨byteLength (passed ++ skipped),
      (LineCount.at (Position.start.after (passed ++ skipped))).line,
      (Position.start.after (passed ++ skipped)).column⟩ : Position) =
        Position.start.after (passed ++ skipped) := by
    rw [← offset_after_start]
    rfl
  rw [errorAt, LineCount.upTo_eq (by rw [h, List.append_assoc]), pure_bind, LineCount.column_eq,
    pure_bind, textFrom_eq h, pure_bind, hplace]

/-- The counting of lines stays behind the reading, at the last token that was begun. -/
theorem tokensFrom_eq (h : source.toList = (passed ++ skipped) ++ text)
    (hturns : byteLength text < turns) (hmore : byteLength text < more) :
    tokensFrom source turns more (byteLength (passed ++ skipped))
        (.at (Position.start.after passed)) =
      (Token.scanFrom (Position.start.after (passed ++ skipped)) text).mapError .fault := by
  induction more generalizing passed skipped text with
  | zero => exact absurd hmore (Nat.not_lt_zero _)
  | succ more ih =>
      obtain ⟨gap, hgap⟩ : ∃ gap, (splitGap false text).1 = gap := ⟨_, rfl⟩
      obtain ⟨rest, hrest⟩ : ∃ rest, (splitGap false text).2 = rest := ⟨_, rfl⟩
      have htext : text = gap ++ rest := by rw [← hgap, ← hrest, splitGap_append]
      have hstart : source.toList = (passed ++ (skipped ++ gap)) ++ rest := by
        rw [h, htext]
        simp only [List.append_assoc]
      have hplace : (Position.start.after (passed ++ skipped)).after gap =
          Position.start.after (passed ++ (skipped ++ gap)) := by
        rw [← Position.after_append, List.append_assoc]
      have hcount : LineCount.upTo source (.at (Position.start.after passed))
          (byteLength (passed ++ (skipped ++ gap))) =
            pure (.at (Position.start.after (passed ++ (skipped ++ gap)))) :=
        LineCount.upTo_eq (by rw [hstart, List.append_assoc])
      rw [tokensFrom, gapEnd_eq h hturns, pure_bind, hgap, List.append_assoc, textFrom_eq hstart,
        pure_bind]
      cases rest with
      | nil =>
          have hend : byteLength (passed ++ (skipped ++ gap)) = source.utf8ByteSize := by
            rw [← byteLength_toList, hstart, List.append_nil]
          rw [hend] at hcount
          rw [Token.scanFrom_of_gap hrest, hgap, hplace, List.isEmpty_nil, if_pos rfl, hcount,
            pure_bind, Position.spanOf, offset_after_start, hend]
          rfl
      | cons c after =>
          rw [Token.scanFrom_of_lexeme hrest, hgap, hplace, List.isEmpty_cons,
            if_neg Bool.false_ne_true]
          cases hsplit : Lexeme.split? (c :: after) with
          | none =>
              simp only [errorAt_eq hstart]
              rfl
          | some found =>
              obtain ⟨lexeme, later⟩ := found
              obtain ⟨hlexeme, hne⟩ := Lexeme.split?_append hsplit
              have hpos : byteLength lexeme.text ≠ 0 :=
                fun hzero => hne (byteLength_eq_zero.mp hzero)
              have hlength := congrArg byteLength htext
              rw [hlexeme, byteLength_append, byteLength_append] at hlength
              rw [hlexeme] at hstart
              have hlater := @ih (passed ++ (skipped ++ gap)) lexeme.text later
                (by simp only [hstart, List.append_assoc]) (by omega) (by omega)
              rw [Position.after_append _ (passed ++ (skipped ++ gap))] at hlater
              simp only [hcount, pure_bind, tokenAt_eq hstart, stop_toToken, hlater]
              cases Token.scanFrom ((Position.start.after (passed ++ (skipped ++ gap))).after
                lexeme.text) later <;> rfl

/-- Whatever the text is, as many turns as it has bytes and one more are enough. -/
theorem tokens_eq (source : String) (more : Nat) :
    tokens source (source.utf8ByteSize + 1 + more) = (Token.scan source).mapError .fault := by
  have hlength := byteLength_toList source
  exact @tokensFrom_eq source [] [] source.toList _ _ rfl (by omega) (by omega)

end Tokens

end Scan

end Scriptlet
