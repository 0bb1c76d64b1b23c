import Scriptlet.Proofs.Dump.Tree

/-! The words of a dump. Numbers, names and made-up names are words, and a word that is a number is
told from one that is a name by its first character. -/

namespace Scriptlet

namespace Double

def IsFinite : Double → Prop
  | finite .. => True
  | _ => False

instance : (value : Double) → Decidable value.IsFinite
  | finite .. => inferInstanceAs (Decidable True)
  | nan | infinite _ => inferInstanceAs (Decidable False)

end Double

def IsFunctionName (anonymous : Bool) (name : String) : Prop :=
  if anonymous then ∃ number, name = Parse.unnamedFunction number else IsName name

/-- A literal that a source text can have, and that is finite if it is a number. -/
def Literal.Legible : Literal → Prop
  | .float value => value.IsFinite
  | .text value => '"' ∉ value.toList
  | _ => True

open Form
open Lexeme (IsDigits isWordStart isWordPart)

def isNumberChar (c : Char) : Bool := c.isDigit || ['.', 'e', '-'].contains c

structure IsNumberText (text : List Char) : Prop where
  ne_nil : text ≠ []
  chars : ∀ c ∈ text, isNumberChar c

section Chars

variable {text : List Char} {name : String}

theorem isFormWord_of {p : Char → Bool} (hne : text ≠ []) (hchars : ∀ c ∈ text, p c)
    (hends : wordEnds.all fun d => !p d) (harrow : ¬p '>') :
    IsFormWord text := by
  refine ⟨hne, fun c hc => isWordChar_of hends (hchars c hc), fun hbegins => ?_⟩
  exact harrow (hchars '>' (hbegins.subset (by simp)))

theorem IsNumberText.isFormWord (h : IsNumberText text) : IsFormWord text :=
  isFormWord_of h.ne_nil h.chars (by decide) (by decide)

theorem IsName.isFormWord (h : IsName name) : IsFormWord name.toList := by
  obtain ⟨c, more, hname, _⟩ := h.head
  exact isFormWord_of (by simp [hname]) h.word.part (by decide) (by decide)

theorem isFormWord_unnamed (number : Nat) :
    IsFormWord (Parse.unnamedFunction number).toList := by
  have htext : (Parse.unnamedFunction number).toList =
      ['<', 'f', 'n', '#'] ++ ((Nat.repr number).toList ++ ['>']) := by
    simp [Parse.unnamedFunction, toString]
  have hdigits := Json.isDigits_repr number
  rw [htext]
  refine ⟨by simp, fun c hc => ?_, fun harrow => ?_⟩
  · rcases List.mem_append.mp hc with hc | hc
    · exact List.all_eq_true.mp (by decide : ['<', 'f', 'n', '#'].all isWordChar) c hc
    · rcases List.mem_append.mp hc with hc | hc
      · exact isWordChar_of (by decide) (hdigits.2 c hc)
      · obtain rfl := List.mem_singleton.mp hc
        decide
  · exact absurd (List.cons_prefix_cons.mp harrow).1 (by decide)

theorem IsFunctionName.isFormWord {anonymous : Bool} (h : IsFunctionName anonymous name) :
    IsFormWord name.toList := by
  unfold IsFunctionName at h
  split at h
  · obtain ⟨number, rfl⟩ := h
    exact isFormWord_unnamed number
  · exact h.isFormWord

theorem IsFunctionName.anonymous_eq {anonymous : Bool} (h : IsFunctionName anonymous name) :
    (name.toList.head? == some '<') = anonymous := by
  unfold IsFunctionName at h
  cases anonymous with
  | true =>
      obtain ⟨number, rfl⟩ := h
      simp [Parse.unnamedFunction, toString]
  | false =>
      obtain ⟨c, more, hname, hstart⟩ := IsName.head h
      rw [hname, List.head?_cons]
      refine beq_eq_false_iff_ne.mpr fun heq => ?_
      obtain rfl := Option.some.inj heq
      exact absurd hstart (by decide)

end Chars

section Numbers

variable {text : List Char} {decimal : Decimal}

theorem numberChars_digits {digits : List Char} (h : IsDigits digits) :
    ∀ c ∈ digits, isNumberChar c :=
  fun c hc => by simp [isNumberChar, h.2 c hc]

theorem isNumberText_digits {digits : List Char} (h : IsDigits digits) : IsNumberText digits :=
  ⟨h.1, numberChars_digits h⟩

theorem IsNumberText.signed (h : IsNumberText text) (negative : Bool) :
    IsNumberText ((if negative then "-" else "").toList ++ text) := by
  refine ⟨by simp [h.ne_nil], List.forall_mem_append.mpr ⟨List.all_eq_true.mp ?_, h.chars⟩⟩
  cases negative <;> decide

theorem isNumberText_int (value : Int) : IsNumberText (toString value).toList := by
  rw [Int.toString_eq_repr, Int.repr_eq_if]
  split
  · exact isNumberText_digits (Json.isDigits_repr _)
  · rw [String.toList_append]
    exact (isNumberText_digits (Json.isDigits_repr _)).signed true

theorem isNumberText_positional (hpos : 0 < decimal.digits) :
    IsNumberText decimal.positional.toList := by
  obtain ⟨whole, fraction, htext, hsplits⟩ := Decimal.exists_splits_positional hpos
  rw [htext]
  refine ⟨by simp, List.forall_mem_append.mpr ⟨numberChars_digits hsplits.before, ?_⟩⟩
  exact List.forall_mem_cons.mpr ⟨by decide, numberChars_digits hsplits.behind⟩

theorem isNumberText_scientific (decimal : Decimal) :
    IsNumberText (decimal.scientific "").toList := by
  have hall := Json.isDigits_repr decimal.digits
  obtain ⟨lead, fraction, hdigits⟩ := List.exists_cons_of_ne_nil hall.1
  have hchars := numberChars_digits hall
  rw [hdigits] at hchars
  obtain ⟨hlead, hfraction⟩ := List.forall_mem_cons.mp hchars
  rw [Decimal.toList_scientific "" hdigits]
  refine ⟨by simp, List.forall_mem_cons.mpr ⟨hlead, List.forall_mem_append.mpr ⟨?_, ?_⟩⟩⟩
  · split
    · simp
    · exact List.forall_mem_cons.mpr ⟨by decide, hfraction⟩
  · refine List.forall_mem_cons.mpr ⟨by decide, List.forall_mem_append.mpr ⟨by simp, ?_⟩⟩
    exact (isNumberText_int _).chars

theorem isNumberText_literalText (negative : Bool) {units : Nat}
    (h : Double.Representable units) :
    IsNumberText (Double.finite negative units h).literalText.toList := by
  unfold Double.literalText Decimal.Layout.write
  dsimp only
  split
  · rw [String.toList_append]
    have hzero : IsNumberText "0.0".toList := ⟨by decide, List.all_eq_true.mp (by decide)⟩
    exact hzero.signed negative
  · rename_i hne
    have hunits := Decimal.units_shortest Decimal.Layout.literal.tie h.1 (Nat.pos_of_ne_zero hne)
    have hpos : 0 < (Decimal.shortest Decimal.Layout.literal.tie units).digits :=
      Decimal.digits_pos (by
        rw [hunits]
        exact Nat.pos_of_ne_zero hne)
    generalize Decimal.shortest Decimal.Layout.literal.tie units = decimal at hpos ⊢
    rw [String.toList_append]
    refine IsNumberText.signed ?_ negative
    by_cases hpoint : Decimal.Layout.literal.isPositional decimal.scientificExponent
    · rw [if_pos hpoint]
      exact isNumberText_positional hpos
    · rw [if_neg hpoint]
      exact isNumberText_scientific decimal

theorem IsNumberText.ne {word : String} (h : IsNumberText word.toList) :
    word ≠ "true" ∧ word ≠ "false" := by
  constructor <;> rintro rfl
  · exact absurd (h.chars 't' (by decide)) (by decide)
  · exact absurd (h.chars 'f' (by decide)) (by decide)

theorem literal?_number {word : String} (h : IsNumberText word.toList) {number : Json}
    (hread : Json.number? (word.toList ++ []) = some (number, [])) :
    literal? word = ofNumber? number := by
  rw [List.append_nil] at hread
  rw [literal?, if_neg h.ne.1, if_neg h.ne.2, hread]
  rfl

theorem literal?_name {name : String} (h : IsName name) : literal? name = none := by
  have htrue : name ≠ "true" := fun heq => h.plain .trueWord (by decide) heq.symm
  have hfalse : name ≠ "false" := fun heq => h.plain .falseWord (by decide) heq.symm
  obtain ⟨c, more, hname, hstart⟩ := h.head
  have hdigit : ¬c.isDigit := fun hdigit => Lexeme.not_isWordStart_of_isDigit hdigit hstart
  have hminus : c ≠ '-' := by
    rintro rfl
    exact absurd hstart (by decide)
  have hunsigned : Json.number? name.toList = none := by
    rw [hname, Json.number?.eq_2 _ fun _ heq => hminus (List.cons.inj heq).1, Json.unsigned?,
      List.takeWhile_cons_of_neg hdigit]
    rfl
  rw [literal?, if_neg htrue, if_neg hfalse, hunsigned]
  rfl

theorem atom?_plain {word : String} {value : Literal} (h : literal? word = some value) :
    (plain word).placeless.atom? = some (.literal value .empty) := by
  simp [plain, placeless, atom?, h]

theorem Literal.atom?_form {value : Literal} (h : value.Legible) :
    value.form.placeless.atom? = some (.literal value .empty) := by
  have hends : Json.Ends [] := by simp [Json.Ends]
  cases value with
  | int value =>
      have hread := literal?_number (isNumberText_int value.toInt)
        (Json.number?_int value.toInt hends)
      rw [ofNumber?, Int64.ofInt_toInt] at hread
      exact atom?_plain hread
  | float value =>
      cases value with
      | nan => exact h.elim
      | infinite => exact h.elim
      | finite negative units hunits =>
          have hread := @Json.number?_write [] .literal (.inl rfl) negative units hunits hends
          exact atom?_plain (literal?_number (isNumberText_literalText negative hunits) hread)
  | text value => rfl
  | bool value => cases value <;> rfl

theorem Literal.legible_form {value : Literal} (h : value.Legible) : value.form.Legible := by
  have hnone : ∀ written ∈ (none : Option TypeExpr), written.Legible := by simp
  cases value with
  | int value => exact ⟨(isNumberText_int value.toInt).isFormWord, hnone⟩
  | float value =>
      cases value with
      | nan => exact h.elim
      | infinite => exact h.elim
      | finite negative units hunits =>
          exact ⟨(isNumberText_literalText negative hunits).isFormWord, hnone⟩
  | text value => exact h
  | bool value =>
      have hall : ∀ value : Bool, (Literal.bool value).sexp.toList ≠ [] ∧
          (Literal.bool value).sexp.toList.all isWordPart := by decide
      exact ⟨isFormWord_of (hall value).1 (List.all_eq_true.mp (hall value).2) (by decide)
        (by decide), hnone⟩

end Numbers

end Scriptlet
