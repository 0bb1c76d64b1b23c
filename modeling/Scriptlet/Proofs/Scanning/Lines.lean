import Scriptlet.Proofs.Scanning.Cut

/-! Texts joined by a line feed. But for a string nothing that is being scanned goes on behind the
end of a line, so the joined text has the tokens of both texts, or the error of the one that has an
error. What stands behind the line feed is only moved. -/

namespace Scriptlet

namespace Position

/-- The same place of a line, further on in the source. -/
def shift (bytes lines : Nat) (place : Position) : Position :=
  ⟨place.offset + bytes, place.line + lines, place.column⟩

theorem after_shift (bytes lines : Nat) (place : Position) (text : List Char) :
    (place.shift bytes lines).after text = (place.after text).shift bytes lines := by
  induction text generalizing place with
  | nil => rfl
  | cons c rest ih =>
      have hstep : (place.shift bytes lines).step c = (place.step c).shift bytes lines := by
        unfold step shift
        split <;> simp only [mk.injEq, and_true] <;> omega
      have hrest := ih (place.step c)
      simp only [after, List.foldl_cons, hstep] at hrest ⊢
      exact hrest

theorem step_line (text : List Char) : (start.after text).step '\n' =
    start.shift (byteLength text + 1) (text.count '\n' + 1) := by
  simp only [step, if_pos, after_offset, after_line, shift, start, mk.injEq, and_true]
  exact ⟨by simp [Char.utf8Size], by omega⟩

end Position

def LexError.shift (bytes lines : Nat) (e : LexError) : LexError :=
  { e with span := e.span.shift bytes lines }

section Line

variable {p : Char → Bool}

theorem takeWhile_line (h : p '\n' = false) (text more : List Char) :
    (text ++ '\n' :: more).takeWhile p = text.takeWhile p := by
  induction text with
  | nil => simp [h]
  | cons c rest ih => cases hc : p c <;> simp [hc, ih]

theorem dropWhile_line (h : p '\n' = false) (text more : List Char) :
    (text ++ '\n' :: more).dropWhile p = text.dropWhile p ++ '\n' :: more := by
  induction text with
  | nil => simp [h]
  | cons c rest ih => cases hc : p c <;> simp [hc, ih]

theorem splitGap_line (inComment : Bool) (text more : List Char) :
    splitGap inComment (text ++ '\n' :: more) =
      match (splitGap inComment text).2 with
      | [] => (text ++ '\n' :: (splitGap false more).1, (splitGap false more).2)
      | c :: rest => ((splitGap inComment text).1, c :: (rest ++ '\n' :: more)) := by
  induction text generalizing inComment with
  | nil => cases inComment <;> simp [splitGap, gapStep, isBlank]
  | cons c rest ih =>
      have hstep : gapStep inComment c (rest ++ '\n' :: more) = gapStep inComment c rest := by
        cases rest <;> simp [gapStep]
      simp only [List.cons_append, splitGap, hstep]
      cases gapStep inComment c rest with
      | none => rfl
      | some goesOn =>
          simp only [ih]
          cases (splitGap goesOn rest).2 <;> rfl

end Line

namespace Lexeme

def followed (more : List Char) (found : Lexeme × List Char) : Lexeme × List Char :=
  (found.1, found.2 ++ '\n' :: more)

variable {found : Lexeme × List Char}

theorem quoted?_line {rest : List Char} (h : quoted? rest = some found) (more : List Char) :
    quoted? (rest ++ '\n' :: more) = some (followed more found) := by
  unfold quoted? at h ⊢
  dsimp only at h ⊢
  split at h
  · rename_i quote after hdrop
    have hne : (rest.dropWhile (· != '"')).isEmpty = false := by rw [hdrop]; rfl
    have hlength : (rest.takeWhile (· != '"')).length ≠ rest.length := by
      have hsplit := congrArg List.length
        (List.takeWhile_append_dropWhile (p := (· != '"')) (l := rest))
      rw [hdrop, List.length_append, List.length_cons] at hsplit
      omega
    rw [List.dropWhile_append, List.takeWhile_append, hne, if_neg hlength, hdrop]
    obtain rfl := Option.some.inj h
    rfl
  · exact absurd h (by simp)

theorem number_line (source more : List Char) :
    number (source ++ '\n' :: more) = followed more (number source) := by
  have hline : Char.isDigit '\n' = false := by decide
  unfold number
  simp only [takeWhile_line hline, dropWhile_line hline]
  cases source.dropWhile Char.isDigit with
  | nil => rfl
  | cons c after =>
      by_cases hpoint : c = '.'
      · subst hpoint
        simp only [List.cons_append, takeWhile_line hline, dropWhile_line hline]
        split <;> rfl
      · simp [hpoint, followed]

theorem word_line (source more : List Char) :
    word (source ++ '\n' :: more) = followed more (word source) := by
  have hline : isWordPart '\n' = false := by decide
  simp only [word, takeWhile_line hline, dropWhile_line hline, followed]

theorem marks?_line (c : Char) (rest more : List Char) :
    marks? (c :: (rest ++ '\n' :: more)) = (marks? (c :: rest)).map (followed more) := by
  cases rest with
  | nil =>
      have htwo : twoMarks? c '\n' = none := by
        unfold twoMarks?
        split <;> simp_all
      simp only [List.nil_append, marks?, htwo, Option.map_map]
      rfl
  | cons d rest =>
      simp only [List.cons_append, marks?]
      cases twoMarks? c d with
      | none => simp only [Option.map_map]; rfl
      | some kind => rfl

/-- Only a string that is not closed can go on in the next line. -/
theorem split?_line {c : Char} {rest : List Char} (h : c = '"' → split? (c :: rest) ≠ none)
    (more : List Char) :
    split? (c :: (rest ++ '\n' :: more)) = (split? (c :: rest)).map (followed more) := by
  by_cases hquote : c = '"'
  · obtain ⟨found, hfound⟩ := Option.ne_none_iff_exists'.mp (h hquote)
    simp only [split?, if_pos hquote] at hfound ⊢
    rw [quoted?_line hfound, hfound, Option.map_some]
  · simp only [split?, if_neg hquote]
    split
    · exact congrArg some (number_line (c :: rest) more)
    · split
      · exact congrArg some (word_line (c :: rest) more)
      · exact marks?_line c rest more

end Lexeme

namespace Token

theorem toToken_shift (lexeme : Lexeme) (place : Position) (bytes lines : Nat) :
    lexeme.toToken (place.shift bytes lines) = (lexeme.toToken place).shift bytes lines := rfl

theorem atHead_shift (place : Position) (bytes lines : Nat) (c : Char) (rest : List Char) :
    LexError.atHead (place.shift bytes lines) c rest =
      (LexError.atHead place c rest).shift bytes lines := by
  simp only [LexError.atHead]
  split
  · rfl
  · split <;> rfl

theorem scanFrom_shift (place : Position) (bytes lines : Nat) (source : List Char) :
    scanFrom (place.shift bytes lines) source =
      ((scanFrom place source).map (List.map (shift bytes lines))).mapError
        (LexError.shift bytes lines) := by
  cases hgap : (splitGap false source).2 with
  | nil =>
      rw [scanFrom_of_gap hgap, scanFrom_of_gap hgap, Position.after_shift]
      rfl
  | cons c rest =>
      rw [scanFrom_of_lexeme hgap, scanFrom_of_lexeme hgap, Position.after_shift]
      cases hsplit : Lexeme.split? (c :: rest) with
      | none => exact congrArg Except.error (atHead_shift ..)
      | some found =>
          obtain ⟨lexeme, after⟩ := found
          have hshorter : after.length < source.length := by
            have hlength := splitGap_length false source
            rw [hgap] at hlength
            exact Nat.lt_of_lt_of_le (Lexeme.split?_shorter hsplit) hlength
          have hrest := scanFrom_shift ((place.after (splitGap false source).1).after lexeme.text)
            bytes lines after
          simp only [Position.after_shift, hrest, toToken_shift]
          cases scanFrom ((place.after (splitGap false source).1).after lexeme.text) after <;> rfl
termination_by source.length

theorem scanFrom_of_splitGap {source gap rest : List Char}
    (h : splitGap false source = (gap ++ (splitGap false rest).1, (splitGap false rest).2))
    (place : Position) : scanFrom place source = scanFrom (place.after gap) rest := by
  have hplace : place.after (splitGap false source).1 =
      (place.after gap).after (splitGap false rest).1 := by
    rw [h, Position.after_append]
  have hsecond : (splitGap false source).2 = (splitGap false rest).2 := by rw [h]
  cases hrest : (splitGap false rest).2 with
  | nil => rw [scanFrom_of_gap hrest, scanFrom_of_gap (hsecond.trans hrest), hplace]
  | cons c after => rw [scanFrom_of_lexeme hrest, scanFrom_of_lexeme (hsecond.trans hrest), hplace]

/-- No error but that of a string looks past the character it is at. -/
theorem atHead_line {c : Char} (h : c ≠ '"') (place : Position) (rest more : List Char) :
    LexError.atHead place c (rest ++ '\n' :: more) = LexError.atHead place c rest := by
  simp only [LexError.atHead, if_neg h]

theorem scanFrom_line (place : Position) (text more : List Char)
    (h : ∀ e, scanFrom place text = .error e → e.fault ≠ .unterminatedString) :
    scanFrom place (text ++ '\n' :: more) = do
      let tokens ← scanFrom place text
      return tokens.dropLast ++ (← scanFrom ((place.after text).step '\n') more) := by
  have hline := splitGap_line false text more
  have hwhole := splitGap_append false text
  cases hgap : (splitGap false text).2 with
  | nil =>
      rw [hgap] at hline
      have hgoesOn : splitGap false (text ++ '\n' :: more) =
          (text ++ ['\n'] ++ (splitGap false more).1, (splitGap false more).2) := by
        simpa using hline
      rw [scanFrom_of_gap hgap, scanFrom_of_splitGap hgoesOn, Position.after_append]
      cases hmore : scanFrom ((place.after text).step '\n') more with
      | error e => exact hmore
      | ok tokens => exact hmore
  | cons c rest =>
      rw [hgap] at hline hwhole
      have hsecond : (splitGap false (text ++ '\n' :: more)).2 = c :: (rest ++ '\n' :: more) := by
        rw [hline]
      rw [scanFrom_of_lexeme hgap] at h ⊢
      rw [scanFrom_of_lexeme hsecond, hline]
      have hclosed : c = '"' → Lexeme.split? (c :: rest) ≠ none := by
        rintro rfl hnone
        exact h _ (by rw [hnone]) rfl
      rw [Lexeme.split?_line hclosed]
      cases hsplit : Lexeme.split? (c :: rest) with
      | none =>
          have hopen : c ≠ '"' := fun hc => hclosed hc hsplit
          exact congrArg Except.error (atHead_line hopen ..)
      | some found =>
          obtain ⟨lexeme, after⟩ := found
          have hshorter : after.length < text.length := by
            have hlength := splitGap_length false text
            rw [hgap] at hlength
            exact Nat.lt_of_lt_of_le (Lexeme.split?_shorter hsplit) hlength
          generalize hplace : (place.after (splitGap false text).1).after lexeme.text = behind
          have hend : behind.after after = place.after text := by
            rw [(Lexeme.split?_append hsplit).1] at hwhole
            rw [← hplace, ← Position.after_append, ← Position.after_append, hwhole]
          have hrest := scanFrom_line behind after more fun e he => h e (by
            simp only [hsplit, hplace, he, Except.map])
          rw [hend] at hrest
          simp only [Option.map_some, Lexeme.followed, hplace, hrest]
          cases htail : scanFrom behind after with
          | error e => rfl
          | ok tokens =>
              have hne : tokens ≠ [] := (layout_of_scanFrom htail).ne_nil
              cases scanFrom ((place.after text).step '\n') more with
              | error e => rfl
              | ok later =>
                  simp only [Except.map, bind, Except.bind, pure, Except.pure,
                    List.dropLast_cons_of_ne_nil hne, List.cons_append]
termination_by text.length

/-- Two texts on lines of their own are scanned one by one. The tokens of the second text, or its
error, are only moved behind the first one. Nothing makes good for an error of the first text,
unless it is a string that is not closed. -/
theorem scan_line (first second : String) :
    (∀ tokens, scan first = .ok tokens → ∃ inner finish,
      tokens = inner ++ [finish] ∧ finish.kind = .endOfInput ∧
      (∀ later, scan second = .ok later → scan (first ++ "\n" ++ second) = .ok (inner ++
        later.map (shift (first.utf8ByteSize + 1) (first.toList.count '\n' + 1)))) ∧
      ∀ e, scan second = .error e → scan (first ++ "\n" ++ second) =
        .error (e.shift (first.utf8ByteSize + 1) (first.toList.count '\n' + 1))) ∧
    ∀ e, scan first = .error e → e.fault ≠ .unterminatedString →
      scan (first ++ "\n" ++ second) = .error e := by
  have hchars : (first ++ "\n" ++ second).toList = first.toList ++ '\n' :: second.toList := by simp
  have hsecond : scanFrom ((Position.start.after first.toList).step '\n') second.toList =
      ((scan second).map (List.map (shift (first.utf8ByteSize + 1)
        (first.toList.count '\n' + 1)))).mapError
        (LexError.shift (first.utf8ByteSize + 1) (first.toList.count '\n' + 1)) := by
    rw [Position.step_line, byteLength_toList, scanFrom_shift, scan]
  refine ⟨fun tokens htokens => ?_, fun e herror hfault => ?_⟩
  · obtain ⟨finish, hinner, hfinish, _⟩ := (layout_of_scanFrom htokens).inside
    have hjoined := scanFrom_line .start first.toList second.toList
      fun e he => nomatch htokens.symm.trans he
    rw [← scan, htokens, ← hchars, ← scan, hsecond] at hjoined
    refine ⟨_, finish, hinner, hfinish, fun later hlater => ?_, fun e herror => ?_⟩
    · rw [hjoined, hlater]
      rfl
    · rw [hjoined, herror]
      rfl
  · have hjoined := scanFrom_line .start first.toList second.toList fun other hother => by
      obtain rfl := Except.error.inj (herror.symm.trans hother)
      exact hfault
    rw [← scan, herror, ← hchars, ← scan] at hjoined
    exact hjoined

/-- A comment ends with its line, and what it says is not looked at. -/
theorem scan_behind_comment :
    (∃ inner, scan ("half / ;; \"a half" ++ "\n" ++ "(2") =
      .ok (inner ++ [⟨.leftParen, "(", none, ⟨18, 1, 2⟩⟩,
        ⟨.number, "2", some (.number (.ofDecimal 2 0)), ⟨19, 1, 2⟩⟩, endOfInput ⟨20, 0, 2⟩])) ∧
    scan ("half / ;; \"a half" ++ "\n" ++ "2 $") = .error ⟨.unexpected '$', ⟨20, 1, 2⟩, 3⟩ ∧
    scan ("$ 2" ++ "\n" ++ "\"a half") = .error ⟨.unexpected '$', ⟨0, 1, 1⟩, 1⟩ := by
  have hfirst : scan "half / ;; \"a half" = .ok [⟨.identifier, "half", none, ⟨0, 4, 1⟩⟩,
      ⟨.slash, "/", none, ⟨5, 1, 1⟩⟩, endOfInput ⟨17, 0, 1⟩] := by decide +kernel
  have hsecond : scan "(2" = .ok [⟨.leftParen, "(", none, ⟨0, 1, 1⟩⟩,
      ⟨.number, "2", some (.number (.ofDecimal 2 0)), ⟨1, 1, 1⟩⟩, endOfInput ⟨2, 0, 1⟩] := by
    decide +kernel
  obtain ⟨inner, _, _, _, hjoined, _⟩ := (scan_line "half / ;; \"a half" "(2").1 _ hfirst
  obtain ⟨_, _, _, _, _, hbroken⟩ := (scan_line "half / ;; \"a half" "2 $").1 _ hfirst
  refine ⟨⟨inner, hjoined _ hsecond⟩, ?_, ?_⟩
  · exact hbroken ⟨.unexpected '$', ⟨2, 1, 1⟩, 3⟩ (by decide +kernel)
  · exact (scan_line "$ 2" "\"a half").2 _ (by decide +kernel) (by decide)

end Token

end Scriptlet
