import Mathlib.Data.List.Infix
import Mathlib.Data.List.TakeWhile
import Scriptlet.Token.Scan

/-! What lexemes there are, said without reading a text, and which of them stands at the head of
a text: the longest one that begins there. -/

namespace Scriptlet

theorem takeWhile_run {α : Type} {p : α → Bool} {run rest : List α} (hrun : ∀ c ∈ run, p c)
    (hrest : ∀ c ∈ rest.head?, ¬p c) :
    (run ++ rest).takeWhile p = run ∧ (run ++ rest).dropWhile p = rest := by
  rw [List.takeWhile_append_of_pos hrun, List.dropWhile_append_of_pos hrun]
  cases rest with
  | nil => simp
  | cons c rest =>
      have hc := hrest c rfl
      rw [List.takeWhile_cons_of_neg hc, List.dropWhile_cons_of_neg hc, List.append_nil]
      exact ⟨rfl, rfl⟩

def Kind.marks : List Kind :=
  [leftParen, rightParen, leftBrace, rightBrace, comma, colon, minus, plus, slash, star, arrow,
    bang, bangEqual, equal, equalEqual, greater, greaterEqual, less, lessEqual, slashSlash]

namespace Lexeme

/-- A letter or an underscore, and then letters, digits and underscores. -/
def IsWord : List Char → Prop
  | [] => False
  | first :: rest => isWordStart first ∧ ∀ c ∈ rest, isWordPart c

instance : (text : List Char) → Decidable (IsWord text)
  | [] => inferInstanceAs (Decidable False)
  | first :: rest => decidable_of_iff (isWordStart first && rest.all isWordPart) (by simp [IsWord])

def IsDigits (text : List Char) : Prop := text ≠ [] ∧ ∀ c ∈ text, c.isDigit

def fixed (kind : Kind) : Lexeme := ⟨kind, kind.spelling.toList, none⟩

def identifier (text : List Char) : Lexeme := ⟨.identifier, text, none⟩

def wholeNumber (digits : List Char) : Lexeme :=
  ⟨.number, digits, some (.number (.ofDecimal (digitsValue digits) 0))⟩

def decimalNumber (digits fraction : List Char) : Lexeme :=
  ⟨.number, digits ++ '.' :: fraction,
    some (.number (.ofDecimal (digitsValue (digits ++ fraction)) fraction.length))⟩

def quotation (body : List Char) : Lexeme :=
  ⟨.string, '"' :: (body ++ ['"']), some (.text (String.ofList body))⟩

/-- The lexemes of the language. A word that spells a keyword is that keyword. -/
inductive Valid : Lexeme → Prop
  | mark {kind : Kind} (h : kind ∈ Kind.marks) : Valid (fixed kind)
  | keyword {kind : Kind} (h : kind ∈ Kind.keywords) : Valid (fixed kind)
  | name {text : List Char} (h : IsWord text)
      (hkeyword : ∀ kind ∈ Kind.keywords, kind.spelling.toList ≠ text) : Valid (identifier text)
  | whole {digits : List Char} (h : IsDigits digits) : Valid (wholeNumber digits)
  | decimal {digits fraction : List Char} (h : IsDigits digits) (hfraction : IsDigits fraction) :
      Valid (decimalNumber digits fraction)
  | quoted {body : List Char} (h : '"' ∉ body) : Valid (quotation body)

/-- A lexeme at the head of a text where no longer one begins. -/
structure Longest (lexeme : Lexeme) (source : List Char) : Prop where
  valid : lexeme.Valid
  isPrefix : lexeme.text <+: source
  maximal : ∀ other : Lexeme, other.Valid → other.text <+: source →
    other.text.length ≤ lexeme.text.length

section Heads

variable {c : Char} {rest : List Char}

theorem isWordPart_of_isWordStart (h : isWordStart c) : isWordPart c := by
  simp only [isWordStart, isWordPart, Bool.or_eq_true, Char.isAlphanum] at h ⊢
  exact h.imp_left Or.inl

theorem not_isWordStart_of_isDigit (h : c.isDigit) : ¬isWordStart c := by
  intro hstart
  delta isWordStart Char.isAlpha Char.isUpper Char.isLower at hstart
  delta Char.isDigit at h
  simp only [Bool.or_eq_true, Bool.and_eq_true, decide_eq_true_eq, beq_iff_eq, ge_iff_le,
    UInt32.le_iff_toNat_le] at h hstart
  rcases hstart with (hstart | hstart) | rfl
  · simp at h hstart
    omega
  · simp at h hstart
    omega
  · simp at h

theorem IsDigits.head (h : IsDigits (c :: rest)) : c.isDigit := h.2 c List.mem_cons_self

theorem IsWord.head (h : IsWord (c :: rest)) : isWordStart c := h.1

theorem IsWord.part {text : List Char} (h : IsWord text) : ∀ d ∈ text, isWordPart d := by
  cases text with
  | nil => exact h.elim
  | cons first rest =>
      exact List.forall_mem_cons.mpr ⟨isWordPart_of_isWordStart h.1, h.2⟩

theorem isWord_of_keyword {kind : Kind} (h : kind ∈ Kind.keywords) :
    IsWord kind.spelling.toList := by
  have hall : ∀ kind ∈ Kind.keywords, IsWord kind.spelling.toList := by decide
  exact hall kind h

theorem not_other_of_mark {kind : Kind} (h : kind ∈ Kind.marks)
    (htext : kind.spelling.toList = c :: rest) :
    c ≠ '"' ∧ ¬c.isDigit ∧ ¬isWordStart c := by
  have hall : ∀ kind ∈ Kind.marks, kind.spelling.toList.head?.all fun c =>
      c != '"' && !c.isDigit && !isWordStart c := by decide
  simpa [htext, and_assoc] using hall kind h

end Heads

theorem Valid.head_cases {lexeme : Lexeme} {c : Char} {rest : List Char} (h : lexeme.Valid)
    (htext : lexeme.text = c :: rest) :
    if c = '"' then ∃ body, '"' ∉ body ∧ lexeme = quotation body
    else if c.isDigit then
      (∃ digits, IsDigits digits ∧ lexeme = wholeNumber digits) ∨
        ∃ digits fraction, IsDigits digits ∧ IsDigits fraction ∧
          lexeme = decimalNumber digits fraction
    else if isWordStart c then IsWord lexeme.text
    else ∃ kind ∈ Kind.marks, lexeme = fixed kind := by
  have of_digits : ∀ {digits more : List Char}, IsDigits digits →
      digits ++ more = c :: rest → c ≠ '"' ∧ c.isDigit := by
    intro digits more hdigits heq
    obtain ⟨first, others, rfl⟩ := List.exists_cons_of_ne_nil hdigits.1
    obtain ⟨rfl, _⟩ := List.cons.inj heq
    refine ⟨?_, hdigits.head⟩
    rintro rfl
    exact absurd hdigits.head (by decide)
  have of_word : ∀ {text : List Char}, IsWord text → text = c :: rest →
      c ≠ '"' ∧ ¬c.isDigit ∧ isWordStart c := by
    rintro text hword rfl
    refine ⟨?_, fun hdigit => not_isWordStart_of_isDigit hdigit hword.1, hword.1⟩
    rintro rfl
    exact absurd hword.1 (by decide)
  cases h with
  | mark hkind =>
      obtain ⟨hquote, hdigit, hword⟩ := not_other_of_mark hkind htext
      rw [if_neg hquote, if_neg hdigit, if_neg hword]
      exact ⟨_, hkind, rfl⟩
  | keyword hkind =>
      have hword := isWord_of_keyword hkind
      obtain ⟨hquote, hdigit, hstart⟩ := of_word hword htext
      rw [if_neg hquote, if_neg hdigit, if_pos hstart]
      exact hword
  | name hword _ =>
      obtain ⟨hquote, hdigit, hstart⟩ := of_word hword htext
      rw [if_neg hquote, if_neg hdigit, if_pos hstart]
      exact hword
  | whole hdigits =>
      obtain ⟨hquote, hdigit⟩ := of_digits hdigits ((List.append_nil _).trans htext)
      rw [if_neg hquote, if_pos hdigit]
      exact .inl ⟨_, hdigits, rfl⟩
  | decimal hdigits hfraction =>
      obtain ⟨hquote, hdigit⟩ := of_digits hdigits htext
      rw [if_neg hquote, if_pos hdigit]
      exact .inr ⟨_, _, hdigits, hfraction, rfl⟩
  | quoted hbody =>
      obtain ⟨rfl, _⟩ := List.cons.inj htext
      rw [if_pos rfl]
      exact ⟨_, hbody, rfl⟩

section Runs

variable {α : Type} {p : α → Bool} {run rest source : List α}

theorem length_le_takeWhile (hrun : ∀ c ∈ run, p c) (hhead : run <+: source) :
    run.length ≤ (source.takeWhile p).length := by
  obtain ⟨rest, rfl⟩ := hhead
  rw [List.takeWhile_append_of_pos hrun, List.length_append]
  exact Nat.le_add_right _ _

theorem takeWhile_append_stop {stop : α} (hrun : ∀ c ∈ run, p c) (hstop : ¬p stop) :
    (run ++ stop :: rest).takeWhile p = run :=
  (takeWhile_run hrun (by simpa using hstop)).1

theorem dropWhile_append_stop {stop : α} (hrun : ∀ c ∈ run, p c) (hstop : ¬p stop) :
    (run ++ stop :: rest).dropWhile p = stop :: rest :=
  (takeWhile_run hrun (by simpa using hstop)).2

end Runs

section Numbers

variable {digits fraction : List Char}

theorem number_of_decimal (hdigits : IsDigits digits) (hfraction : IsDigits fraction)
    (rest : List Char) : ∃ more after,
      number (digits ++ '.' :: (fraction ++ rest)) = (decimalNumber digits more, after) ∧
        fraction.length ≤ more.length := by
  have hpoint : ¬Char.isDigit '.' := by decide
  have hlength : fraction.length ≤ ((fraction ++ rest).takeWhile Char.isDigit).length :=
    length_le_takeWhile hfraction.2 (List.prefix_append _ _)
  have hsome : ((fraction ++ rest).takeWhile Char.isDigit).isEmpty = false := by
    rw [List.isEmpty_eq_false_iff, ← List.length_pos_iff]
    exact Nat.lt_of_lt_of_le (List.length_pos_iff.mpr hfraction.1) hlength
  refine ⟨(fraction ++ rest).takeWhile Char.isDigit, (fraction ++ rest).dropWhile Char.isDigit,
    ?_, hlength⟩
  unfold number
  simp only [takeWhile_append_stop hdigits.2 hpoint, dropWhile_append_stop hdigits.2 hpoint,
    hsome]
  rfl

theorem takeWhile_le_number (source : List Char) :
    (source.takeWhile Char.isDigit).length ≤ (number source).1.text.length := by
  unfold number
  dsimp only
  split
  · split
    · exact Nat.le_refl _
    · simp
  · exact Nat.le_refl _

theorem number_valid {c : Char} (hc : c.isDigit) (rest : List Char) :
    (number (c :: rest)).1.Valid := by
  have hdigits : IsDigits ((c :: rest).takeWhile Char.isDigit) :=
    ⟨by simp [hc], fun d hd => List.mem_takeWhile_imp hd⟩
  unfold number
  dsimp only
  split
  · split
    · exact .whole hdigits
    · rename_i hsome
      exact .decimal hdigits
        ⟨by simpa using hsome, fun d hd => List.mem_takeWhile_imp hd⟩
  · exact .whole hdigits

end Numbers

section Marks

variable {c d : Char} {kind : Kind}

theorem oneMark?_eq_some (h : oneMark? c = some kind) :
    kind ∈ Kind.marks ∧ kind.spelling.toList = [c] := by
  unfold oneMark? at h
  split at h <;> first | (obtain rfl := Option.some.inj h; decide) | simp at h

theorem twoMarks?_eq_some (h : twoMarks? c d = some kind) :
    kind ∈ Kind.marks ∧ kind.spelling.toList = [c, d] := by
  unfold twoMarks? at h
  split at h <;> first | (obtain rfl := Option.some.inj h; decide) | simp at h

theorem mark_cases (h : kind ∈ Kind.marks) :
    (∃ c, kind.spelling.toList = [c] ∧ oneMark? c = some kind) ∨
      ∃ c d, kind.spelling.toList = [c, d] ∧ twoMarks? c d = some kind := by
  cases kind <;> first
    | exact .inl ⟨_, rfl, rfl⟩
    | exact .inr ⟨_, _, rfl, rfl⟩
    | exact absurd h (by decide)

theorem marks?_of_oneMark (h : oneMark? c = some kind) (rest : List Char) :
    ∃ lexeme after, marks? (c :: rest) = some (lexeme, after) ∧ 1 ≤ lexeme.text.length := by
  cases rest with
  | nil => exact ⟨⟨kind, [c], none⟩, [], by simp [marks?, h], Nat.le_refl 1⟩
  | cons d rest =>
      cases htwo : twoMarks? c d with
      | some both => exact ⟨⟨both, [c, d], none⟩, rest, by simp [marks?, htwo], by simp⟩
      | none => exact ⟨⟨kind, [c], none⟩, d :: rest, by simp [marks?, htwo, h], Nat.le_refl 1⟩

theorem marks?_valid {source after : List Char} {lexeme : Lexeme}
    (h : marks? source = some (lexeme, after)) : lexeme.Valid := by
  have hone : ∀ {c : Char} {rest : List Char},
      (oneMark? c).map (fun kind => ((⟨kind, [c], none⟩ : Lexeme), rest)) =
        some (lexeme, after) → lexeme.Valid := by
    intro c rest heq
    obtain ⟨kind, hkind, hlexeme⟩ := Option.map_eq_some_iff.mp heq
    obtain ⟨hmark, hspelling⟩ := oneMark?_eq_some hkind
    obtain ⟨rfl, _⟩ := Prod.mk.inj hlexeme
    exact hspelling ▸ Valid.mark hmark
  unfold marks? at h
  split at h
  · simp at h
  · exact hone h
  · split at h
    · rename_i kind hkind
      obtain ⟨hmark, hspelling⟩ := twoMarks?_eq_some hkind
      obtain ⟨rfl, _⟩ := Prod.mk.inj (Option.some.inj h)
      exact hspelling ▸ Valid.mark hmark
    · exact hone h

end Marks

section Split

variable {source after : List Char} {lexeme other : Lexeme}

theorem word_valid {c : Char} (hc : isWordStart c) (rest : List Char) :
    (word (c :: rest)).1.Valid := by
  have htext : (c :: rest).takeWhile isWordPart = c :: rest.takeWhile isWordPart :=
    List.takeWhile_cons_of_pos (isWordPart_of_isWordStart hc)
  have hword : IsWord ((c :: rest).takeWhile isWordPart) := by
    rw [htext]
    exact ⟨hc, fun d hd => List.mem_takeWhile_imp hd⟩
  unfold word
  dsimp only
  cases hkeyword : Kind.keyword? (String.ofList ((c :: rest).takeWhile isWordPart)) with
  | some kind =>
      have hspelling := List.find?_some hkeyword
      rw [beq_iff_eq] at hspelling
      have hvalid := Valid.keyword (List.mem_of_find?_eq_some hkeyword)
      rwa [fixed, hspelling, String.toList_ofList] at hvalid
  | none =>
      refine .name hword fun kind hkind heq => ?_
      have hnot := List.find?_eq_none.mp hkeyword kind hkind
      rw [← heq, String.ofList_toList] at hnot
      simp at hnot

theorem quoted?_valid {rest : List Char} (h : quoted? rest = some (lexeme, after)) :
    lexeme.Valid := by
  unfold quoted? at h
  dsimp only at h
  split at h
  · rename_i quote tail hdrop
    obtain ⟨rfl, _⟩ := Prod.mk.inj (Option.some.inj h)
    have hquote : quote = '"' := by
      have hhead := List.head?_dropWhile_not (· != '"') rest
      rw [hdrop] at hhead
      simpa using hhead
    subst hquote
    refine Valid.quoted fun hmem => ?_
    have hne := List.mem_takeWhile_imp hmem
    simp at hne
  · simp at h

theorem split?_valid (h : split? source = some (lexeme, after)) : lexeme.Valid := by
  unfold split? at h
  split at h
  · simp at h
  · rename_i c rest
    split at h
    · exact quoted?_valid h
    · split at h
      · rename_i hdigit
        have hvalid := number_valid hdigit rest
        rwa [Option.some.inj h] at hvalid
      · split at h
        · rename_i hword
          have hvalid := word_valid hword rest
          rwa [Option.some.inj h] at hvalid
        · exact marks?_valid h

theorem quoted?_quotation {body : List Char} (h : '"' ∉ body) (rest : List Char) :
    quoted? (body ++ '"' :: rest) = some (quotation body, rest) := by
  have hrun : ∀ c ∈ body, (c != '"') = true := by
    intro c hc
    rw [bne_iff_ne]
    rintro rfl
    exact h hc
  have hstop : ¬('"' != '"') = true := by decide
  simp only [quoted?, takeWhile_append_stop hrun hstop,
    dropWhile_append_stop hrun hstop]
  rfl

theorem le_number {c : Char} {text rest : List Char}
    (h : (∃ digits, IsDigits digits ∧ other = wholeNumber digits) ∨
      ∃ digits fraction, IsDigits digits ∧ IsDigits fraction ∧
        other = decimalNumber digits fraction) (htext : other.text = c :: text) :
    other.text.length ≤ (number (c :: (text ++ rest))).1.text.length := by
  rw [← List.cons_append, ← htext]
  rcases h with ⟨digits, hdigits, rfl⟩ | ⟨digits, fraction, hdigits, hfraction, rfl⟩
  · exact Nat.le_trans (length_le_takeWhile hdigits.2 (List.prefix_append _ _))
      (takeWhile_le_number _)
  · obtain ⟨more, after, hnumber, hlength⟩ := number_of_decimal hdigits hfraction rest
    have hsource : (decimalNumber digits fraction).text ++ rest =
        digits ++ '.' :: (fraction ++ rest) := by simp [decimalNumber]
    rw [hsource, hnumber]
    simpa [decimalNumber] using hlength

theorem Valid.text_ne_nil (h : lexeme.Valid) : lexeme.text ≠ [] := by
  cases h with
  | mark hkind => rcases mark_cases hkind with ⟨c, h, _⟩ | ⟨c, d, h, _⟩ <;> simp [fixed, h]
  | keyword hkind =>
      intro hnil
      have hword := isWord_of_keyword hkind
      simp only [fixed] at hnil
      rw [hnil] at hword
      exact hword
  | name hword _ =>
      rintro rfl
      exact hword
  | whole hdigits => exact hdigits.1
  | decimal hdigits _ => simp [decimalNumber]
  | quoted _ => simp [quotation]

theorem split?_of_valid (hvalid : other.Valid) (hhead : other.text <+: source) :
    ∃ lexeme after, split? source = some (lexeme, after) ∧
      other.text.length ≤ lexeme.text.length := by
  obtain ⟨rest, rfl⟩ := hhead
  obtain ⟨c, text, htext⟩ := List.exists_cons_of_ne_nil hvalid.text_ne_nil
  have hcases := hvalid.head_cases htext
  rw [htext, List.cons_append]
  simp only [split?]
  by_cases hquote : c = '"'
  · rw [if_pos hquote] at hcases ⊢
    obtain ⟨body, hbody, rfl⟩ := hcases
    obtain rfl : body ++ ['"'] = text := (List.cons.inj htext).2
    rw [List.append_assoc, List.singleton_append, quoted?_quotation hbody]
    exact ⟨_, _, rfl, by simp [quotation]⟩
  rw [if_neg hquote] at hcases ⊢
  by_cases hdigit : c.isDigit
  · rw [if_pos hdigit] at hcases ⊢
    exact ⟨_, _, rfl, htext ▸ le_number hcases htext⟩
  rw [if_neg hdigit] at hcases ⊢
  by_cases hstart : isWordStart c
  · rw [if_pos hstart] at hcases ⊢
    rw [htext] at hcases
    exact ⟨_, _, rfl, length_le_takeWhile hcases.part (List.prefix_append (c :: text) rest)⟩
  rw [if_neg hstart] at hcases ⊢
  obtain ⟨kind, hkind, rfl⟩ := hcases
  simp only [fixed] at htext
  rcases mark_cases hkind with ⟨d, hone, hread⟩ | ⟨d, e, htwo, hread⟩
  · obtain ⟨rfl, rfl⟩ := List.cons.inj (hone.symm.trans htext)
    exact marks?_of_oneMark hread _
  · obtain ⟨rfl, rfl⟩ := List.cons.inj (htwo.symm.trans htext)
    exact ⟨⟨kind, [d, e], none⟩, rest, by simp [marks?, hread], Nat.le_refl 2⟩

theorem split?_eq_none_iff :
    split? source = none ↔ ∀ lexeme : Lexeme, lexeme.Valid → ¬lexeme.text <+: source := by
  constructor
  · intro hnone lexeme hvalid hhead
    obtain ⟨longer, after, hsplit, _⟩ := split?_of_valid hvalid hhead
    rw [hnone] at hsplit
    simp at hsplit
  · intro hnot
    cases hsplit : split? source with
    | none => rfl
    | some found =>
        obtain ⟨lexeme, after⟩ := found
        refine absurd ?_ (hnot lexeme (split?_valid hsplit))
        rw [(split?_append hsplit).1]
        exact List.prefix_append _ _

/-- Whether a lexeme would be longer if the character came behind it. -/
def goesOn (lexeme : Lexeme) (c : Char) : Bool :=
  match lexeme.kind, lexeme.text with
  | .string, _ => false
  | .number, _ => c.isDigit || c == '.'
  | kind, text =>
      if kind ∈ Kind.marks then
        match text with
        | [first] => (twoMarks? first c).isSome
        | _ => false
      else isWordPart c

theorem goesOn_word {kind : Kind} (hkind : kind = .identifier ∨ kind ∈ Kind.keywords)
    (text : List Char) (payload : Option Payload) (c : Char) :
    goesOn ⟨kind, text, payload⟩ c = isWordPart c := by
  have hall : ∀ kind ∈ Kind.identifier :: Kind.keywords,
      kind ∉ Kind.marks ∧ kind ≠ .string ∧ kind ≠ .number := by decide
  obtain ⟨hmark, hstring, hnumber⟩ := hall kind (List.mem_cons.mpr hkind)
  unfold goesOn
  split
  · exact absurd ‹_› hstring
  · exact absurd ‹_› hnumber
  · exact if_neg hmark

theorem goesOn_mark {kind : Kind} (hkind : kind ∈ Kind.marks) (first : Char)
    (payload : Option Payload) (c : Char) :
    goesOn ⟨kind, [first], payload⟩ c = (twoMarks? first c).isSome := by
  have hall : ∀ kind ∈ Kind.marks, kind ≠ .string ∧ kind ≠ .number := by decide
  obtain ⟨hstring, hnumber⟩ := hall kind hkind
  unfold goesOn
  split
  · exact absurd ‹_› hstring
  · exact absurd ‹_› hnumber
  · exact if_pos hkind

theorem split?_word {text rest : List Char} (h : IsWord text)
    (hrest : ∀ c ∈ rest.head?, ¬isWordPart c) :
    split? (text ++ rest) =
      some (⟨(Kind.keyword? (String.ofList text)).getD .identifier, text, none⟩, rest) := by
  cases text with
  | nil => exact h.elim
  | cons c text =>
      have hquote : c ≠ '"' := by
        rintro rfl
        exact absurd h.1 (by decide)
      have hdigit : ¬c.isDigit := fun hdigit => not_isWordStart_of_isDigit hdigit h.1
      obtain ⟨htake, hdrop⟩ := takeWhile_run h.part hrest
      rw [List.cons_append] at htake hdrop ⊢
      simp only [split?, if_neg hquote, if_neg hdigit, if_pos h.1, word, htake, hdrop]

theorem split?_number {c : Char} {text : List Char} (h : c.isDigit) :
    split? (c :: text) = some (number (c :: text)) := by
  have hquote : c ≠ '"' := by
    rintro rfl
    exact absurd h (by decide)
  simp only [split?, if_neg hquote, if_pos h]

theorem split?_mark {kind : Kind} {rest : List Char} (h : kind ∈ Kind.marks)
    (hrest : ∀ c ∈ rest.head?, ¬(fixed kind).goesOn c) :
    split? ((fixed kind).text ++ rest) = some (fixed kind, rest) := by
  have hmarks : marks? ((fixed kind).text ++ rest) = some (fixed kind, rest) := by
    rcases mark_cases h with ⟨c, hone, hread⟩ | ⟨c, d, htwo, hread⟩
    · cases rest with
      | nil => simp [fixed, hone, marks?, hread]
      | cons d rest =>
          have hnone : twoMarks? c d = none := by
            have hstop := hrest d rfl
            rw [fixed, hone, goesOn_mark h] at hstop
            simpa using hstop
          simp [fixed, hone, marks?, hread, hnone]
    · simp [fixed, htwo, marks?, hread]
  obtain ⟨c, text, htext⟩ := List.exists_cons_of_ne_nil (Valid.mark h).text_ne_nil
  obtain ⟨hquote, hdigit, hstart⟩ := not_other_of_mark h htext
  rw [htext, List.cons_append] at hmarks ⊢
  simpa only [split?, if_neg hquote, if_neg hdigit, if_neg hstart] using hmarks

theorem Valid.split?_append {rest : List Char} (h : lexeme.Valid)
    (hrest : ∀ c ∈ rest.head?, ¬lexeme.goesOn c) :
    split? (lexeme.text ++ rest) = some (lexeme, rest) := by
  cases h with
  | mark hkind => exact split?_mark hkind hrest
  | @keyword kind hkind =>
      have hall : ∀ kind ∈ Kind.keywords, Kind.keyword? kind.spelling = some kind := by decide
      have hword := split?_word (isWord_of_keyword hkind) fun c hc => by
        simpa only [fixed, goesOn_word (.inr hkind)] using hrest c hc
      rw [fixed, hword, String.ofList_toList, hall kind hkind]
      rfl
  | @name text hword hkeyword =>
      have hnone : Kind.keyword? (String.ofList text) = none := by
        refine List.find?_eq_none.mpr fun kind hkind heq => hkeyword kind hkind ?_
        rw [eq_of_beq heq, String.toList_ofList]
      have hread := split?_word hword fun c hc => by
        simpa only [identifier, goesOn_word (.inl rfl)] using hrest c hc
      rw [identifier, hread, hnone]
      rfl
  | @whole digits hdigits =>
      have hnext : ∀ c ∈ rest.head?, ¬c.isDigit ∧ c ≠ '.' := fun c hc => by
        simpa [goesOn, wholeNumber] using hrest c hc
      obtain ⟨c, more, rfl⟩ := List.exists_cons_of_ne_nil hdigits.1
      obtain ⟨htake, hdrop⟩ := takeWhile_run hdigits.2 fun c hc => (hnext c hc).1
      rw [wholeNumber, List.cons_append, split?_number hdigits.head, ← List.cons_append, number]
      simp only [htake, hdrop]
      split
      · exact absurd rfl (hnext '.' rfl).2
      · rfl
  | @decimal digits fraction hdigits hfraction =>
      have hnext : ∀ c ∈ rest.head?, ¬c.isDigit := fun c hc => by
        have hstop : ¬c.isDigit ∧ c ≠ '.' := by simpa [goesOn, decimalNumber] using hrest c hc
        exact hstop.1
      have hpoint : ¬Char.isDigit '.' := by decide
      obtain ⟨c, more, rfl⟩ := List.exists_cons_of_ne_nil hdigits.1
      obtain ⟨htake, hdrop⟩ := takeWhile_run hfraction.2 hnext
      rw [decimalNumber, List.append_assoc, List.cons_append, List.cons_append,
        split?_number hdigits.head, ← List.cons_append]
      simp only [number, takeWhile_append_stop hdigits.2 hpoint,
        dropWhile_append_stop hdigits.2 hpoint, htake, hdrop, List.isEmpty_iff, if_neg hfraction.1]
  | quoted hbody => simpa [quotation, split?] using quoted?_quotation hbody rest

theorem split?_text (h : lexeme.Valid) : split? lexeme.text = some (lexeme, []) := by
  have hread : split? (lexeme.text ++ []) = some (lexeme, []) := h.split?_append nofun
  rwa [List.append_nil] at hread

theorem Valid.eq_of_text (h : lexeme.Valid) (h' : other.Valid) (htext : lexeme.text = other.text) :
    lexeme = other := by
  have hread := split?_text h
  rw [htext, split?_text h'] at hread
  exact (Prod.mk.inj (Option.some.inj hread)).1.symm

/-- The longest lexeme at the head of a text is split off. -/
theorem split?_eq_some_iff :
    split? source = some (lexeme, after) ↔
      lexeme.Longest source ∧ source = lexeme.text ++ after := by
  constructor
  · intro hsplit
    obtain ⟨hsource, _⟩ := split?_append hsplit
    refine ⟨⟨split?_valid hsplit, hsource ▸ List.prefix_append _ _, ?_⟩, hsource⟩
    intro other hvalid hhead
    obtain ⟨longer, rest, hlonger, hlength⟩ := split?_of_valid hvalid hhead
    obtain ⟨rfl, _⟩ := Prod.mk.inj (Option.some.inj (hsplit.symm.trans hlonger))
    exact hlength
  · rintro ⟨hlongest, hsource⟩
    obtain ⟨found, rest, hsplit, hlength⟩ := split?_of_valid hlongest.valid hlongest.isPrefix
    obtain ⟨hfound, _⟩ := split?_append hsplit
    have hvalid := split?_valid hsplit
    have hsame := hlongest.maximal found hvalid (hfound ▸ List.prefix_append _ _)
    obtain ⟨htext, hrest⟩ := List.append_inj (hsource.symm.trans hfound) (by omega)
    obtain rfl := hlongest.valid.eq_of_text hvalid htext
    rw [hsplit, hrest]

theorem Valid.longest {rest : List Char} (h : lexeme.Valid)
    (hrest : ∀ c ∈ rest.head?, ¬lexeme.goesOn c) : lexeme.Longest (lexeme.text ++ rest) :=
  (split?_eq_some_iff.mp (h.split?_append hrest)).1

end Split

end Lexeme

end Scriptlet
