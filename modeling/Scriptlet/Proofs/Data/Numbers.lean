import Scriptlet.Decimal.Layout
import Scriptlet.Proofs.Data.Reader
import Scriptlet.Proofs.Scanning.Lexemes

/-! Numbers read back. The digits that are written for a double are those of its shortest decimal,
wherever the point stands, and that decimal is read as the same double. -/

namespace Scriptlet

namespace Json

open Lexeme (IsDigits)

/-- What may stand behind written data: nothing, a comma or the end of the line. -/
def Ends (rest : List Char) : Prop := ∀ c ∈ rest.head?, c = ',' ∨ c = '\n'

section Digits

variable {digits rest : List Char}

theorem Ends.not_isDigit (h : Ends rest) : ∀ c ∈ rest.head?, ¬c.isDigit := by
  intro c hc
  rcases h c hc with rfl | rfl <;> decide

theorem isDigits_repr (n : Nat) : IsDigits (Nat.repr n).toList := by
  rw [Nat.toList_repr]
  exact ⟨Nat.toDigits_ne_nil, fun c hc => Nat.isDigit_of_mem_toDigits (by decide) (by decide) hc⟩

theorem isDigits_zero : IsDigits ['0'] := isDigits_repr 0

theorem ofDigitChars_repr (n : Nat) : Nat.ofDigitChars 10 (Nat.repr n).toList 0 = n := by
  rw [Nat.toList_repr, Nat.ofDigitChars_ten_toDigits]

theorem exists_leadingDigit (n : Nat) (h : 0 < n) :
    ∃ lead rest, (Nat.repr n).toList = lead :: rest ∧ lead ≠ '0' := by
  rw [Nat.toList_repr]
  induction n using Nat.strongRecOn with
  | ind n ih =>
      by_cases hsmall : n < 10
      · rw [Nat.toDigits_of_lt_base hsmall]
        have hall : ∀ k < 10, 0 < k → Nat.digitChar k ≠ '0' := by decide
        exact ⟨_, [], rfl, hall n hsmall h⟩
      · obtain ⟨lead, rest, hlead, hne⟩ := ih (n / 10) (by omega) (by omega)
        rw [Nat.toDigits_of_base_le (by decide) (Nat.not_lt.mp hsmall), hlead]
        exact ⟨lead, _, rfl, hne⟩

theorem isWhole_cons {lead : Char} (h : lead ≠ '0') (rest : List Char) :
    isWhole (lead :: rest) := by
  simp [isWhole, h]

theorem isWhole_repr (n : Nat) : isWhole (Nat.repr n).toList := by
  rcases Nat.eq_zero_or_pos n with rfl | hpos
  · rfl
  · obtain ⟨lead, rest, hlead, hne⟩ := exists_leadingDigit n hpos
    rw [hlead]
    exact isWhole_cons hne rest

end Digits

section Parts

variable {digits rest : List Char}

theorem fraction?_digits (hdigits : IsDigits digits) (hrest : ∀ c ∈ rest.head?, ¬c.isDigit) :
    fraction? ('.' :: (digits ++ rest)) = some (digits, rest) := by
  obtain ⟨htake, hdrop⟩ := takeWhile_run hdigits.2 hrest
  rw [fraction?, htake, hdrop, if_neg hdigits.1]

theorem fraction?_none (hrest : ∀ c ∈ rest.head?, c ≠ '.') :
    fraction? rest = some ([], rest) := by
  unfold fraction?
  split
  · exact absurd rfl (hrest '.' rfl)
  · rfl

theorem exponent?_none (hrest : ∀ c ∈ rest.head?, c ≠ 'e' ∧ c ≠ 'E') :
    exponent? rest = some (none, rest) := by
  unfold exponent?
  split
  · rename_i c rest
    obtain ⟨hlower, hupper⟩ := hrest c rfl
    rw [if_neg (by simp [hlower, hupper])]
  · rfl

theorem exponentDigits?_repr (negative : Bool) (size : Nat) (hrest : Ends rest) :
    exponentDigits? negative ((Nat.repr size).toList ++ rest) =
      some (some (if negative then -(size : Int) else size), rest) := by
  have hdigits := isDigits_repr size
  obtain ⟨htake, hdrop⟩ := takeWhile_run hdigits.2 hrest.not_isDigit
  rw [exponentDigits?, htake, hdrop, ofDigitChars_repr]
  simp only [if_neg hdigits.1]

theorem exponent?_signed {plus : String} (hplus : plus = "" ∨ plus = "+") (exponent : Int)
    (hrest : Ends rest) :
    exponent? ('e' :: ((if exponent < 0 then "" else plus).toList ++ ((toString exponent).toList ++
      rest))) = some (some exponent, rest) := by
  rw [Int.toString_eq_repr, Int.repr_eq_if]
  by_cases hneg : exponent < 0
  · have hsize : -((-exponent).toNat : Int) = exponent := by omega
    have hread := exponentDigits?_repr true (-exponent).toNat hrest
    rw [if_pos rfl, hsize] at hread
    rw [if_pos hneg, if_neg (Int.not_le.mpr hneg), String.toList_append]
    exact hread
  · have hsize : (exponent.toNat : Int) = exponent := by omega
    have hread := exponentDigits?_repr false exponent.toNat hrest
    rw [if_neg Bool.false_ne_true, hsize] at hread
    rw [if_neg hneg, if_pos (Int.not_lt.mp hneg)]
    rcases hplus with rfl | rfl
    · -- a digit comes next, so neither sign is taken
      have hdigits := isDigits_repr exponent.toNat
      obtain ⟨c, more, hc⟩ := List.exists_cons_of_ne_nil hdigits.1
      have hdigit : c.isDigit := hdigits.2 c (hc ▸ List.mem_cons_self)
      rw [hc] at hread ⊢
      have hminus : c ≠ '-' := by
        rintro rfl
        exact absurd hdigit (by decide)
      have hno_plus : c ≠ '+' := by
        rintro rfl
        exact absurd hdigit (by decide)
      simpa [exponent?, hminus, hno_plus] using hread
    · exact hread

theorem number?_parts (negative : Bool) {whole fraction behind behind' : List Char}
    {exponent : Option Int} (hdigits : IsDigits whole) (hwhole : isWhole whole)
    (hbehind : ∀ c ∈ behind.head?, ¬c.isDigit)
    (hfraction : fraction? behind = some (fraction, behind'))
    (hexponent : exponent? behind' = some (exponent, rest)) :
    number? ((if negative then "-" else "").toList ++ (whole ++ behind)) =
      (ofParts? negative whole fraction exponent).map fun data => (data, rest) := by
  obtain ⟨htake, hdrop⟩ := takeWhile_run hdigits.2 hbehind
  have hunsigned : unsigned? negative (whole ++ behind) =
      (ofParts? negative whole fraction exponent).map fun data => (data, rest) := by
    simp only [unsigned?, htake, hdrop, hwhole, hfraction, hexponent, guard, if_true,
      Option.bind_eq_bind, Option.bind_some, Option.pure_def]
    cases ofParts? negative whole fraction exponent <;> rfl
  rw [← hunsigned]
  cases negative with
  | true => rfl
  | false =>
      obtain ⟨c, rest, rfl⟩ := List.exists_cons_of_ne_nil hdigits.1
      have hc : c ≠ '-' := by
        rintro rfl
        exact absurd (hdigits.2 '-' List.mem_cons_self) (by decide)
      exact number?.eq_2 _ fun _ heq => hc (List.cons.inj heq).1

theorem Ends.no_fraction (h : Ends rest) : fraction? rest = some ([], rest) :=
  fraction?_none fun c hc => by
    rcases h c hc with rfl | rfl <;> decide

theorem Ends.no_exponent (h : Ends rest) : exponent? rest = some (none, rest) :=
  exponent?_none fun c hc => by
    rcases h c hc with rfl | rfl <;> decide

end Parts

theorem number?_int (value : Int) {rest : List Char} (hrest : Ends rest) :
    number? ((toString value).toList ++ rest) = some (.int value, rest) := by
  have hread := number?_parts (value < 0) (isDigits_repr value.natAbs)
    (isWhole_repr value.natAbs) hrest.not_isDigit hrest.no_fraction hrest.no_exponent
  have hvalue :
      ofParts? (value < 0) (Nat.repr value.natAbs).toList [] none = some (.int value) := by
    rw [ofParts?, List.append_nil, ofDigitChars_repr, if_pos ⟨rfl, rfl⟩]
    simp only [decide_eq_true_eq]
    congr 2
    split <;> omega
  have hsign : (toString value).toList =
      (if decide (value < 0) then "-" else "").toList ++ (Nat.repr value.natAbs).toList := by
    rw [Int.toString_eq_repr, Int.repr_eq_if, ← String.toList_append]
    by_cases hneg : value < 0
    · have hsize : (-value).toNat = value.natAbs := by omega
      rw [if_neg (Int.not_le.mpr hneg), if_pos (decide_eq_true hneg), hsize]
    · have hsize : value.toNat = value.natAbs := by omega
      rw [if_pos (Int.not_lt.mp hneg), if_neg (by simpa using hneg), hsize, String.empty_append]
  rw [hsign, List.append_assoc, hread, hvalue]
  rfl

end Json

namespace Decimal

open Double
open Json (isWhole)
open Lexeme (IsDigits)

variable {decimal : Decimal}

theorem toDouble_of_units (negative : Bool) {units : Nat} (h : Representable units)
    (hunits : decimal.units = units) :
    decimal.toDouble negative = .finite negative units h := by
  subst hunits
  rw [toDouble, nearest_eq (pow_ten_pos _)]
  exact dif_pos h.2

theorem toList_pushn (c : Char) (n : Nat) : ("".pushn c n).toList = List.replicate n c := by
  rw [String.pushn_eq_repeat_push]
  induction n with
  | zero => rfl
  | succ n ih => rw [Nat.repeat, String.toList_push, ih, List.replicate_succ']

theorem isDigit_of_mem_zeros {zeros : Nat} {c : Char} (h : c ∈ List.replicate zeros '0') :
    c.isDigit := by
  rw [List.eq_of_mem_replicate h]
  rfl

/-- The digits before and behind a point are read as the same double as the decimal. -/
structure Splits (decimal : Decimal) (whole fraction : List Char) : Prop where
  before : IsDigits whole
  unpadded : isWhole whole
  behind : IsDigits fraction
  units_eq : Decimal.units ⟨Nat.ofDigitChars 10 (whole ++ fraction) 0, 0 - fraction.length⟩ =
    decimal.units

section Splits

variable {digits : Nat}

theorem splits_zeros (hpos : 0 < digits) (zeros : Nat) : Splits ⟨digits, zeros⟩
    ((Nat.repr digits).toList ++ List.replicate zeros '0') ['0'] := by
  obtain ⟨lead, more, hlead, hne⟩ := Json.exists_leadingDigit digits hpos
  have hdigits := Json.isDigits_repr digits
  refine ⟨⟨by simp, fun c hc => ?_⟩, ?_, Json.isDigits_zero, ?_⟩
  · exact (List.mem_append.mp hc).elim (hdigits.2 c) isDigit_of_mem_zeros
  · rw [hlead, List.cons_append]
    exact Json.isWhole_cons hne _
  · have hall : Nat.ofDigitChars 10 ((Nat.repr digits).toList ++ List.replicate zeros '0' ++
        ['0']) 0 = digits * Nat.pow 10 (zeros + 1) := by
      rw [List.append_assoc, ← List.replicate_succ', Nat.ofDigitChars_append,
        Json.ofDigitChars_repr, Nat.ofDigitChars_replicate_zero, Nat.mul_comm, Nat.pow_eq]
    have hexponent : (0 : Int) - (['0'].length : Nat) = zeros - (zeros + 1 : Nat) := by
      simp
    rw [hall, hexponent]
    exact units_zeros digits (zeros + 1) zeros

theorem splits_inside (hpos : 0 < digits) {places : Nat} (hplaces : 0 < places)
    (h : places < (Nat.repr digits).toList.length) : Splits ⟨digits, 0 - places⟩
    ((Nat.repr digits).toList.take ((Nat.repr digits).toList.length - places))
    ((Nat.repr digits).toList.drop ((Nat.repr digits).toList.length - places)) := by
  obtain ⟨lead, more, hlead, hne⟩ := Json.exists_leadingDigit digits hpos
  have hdigits := Json.isDigits_repr digits
  have hvalue := Json.ofDigitChars_repr digits
  generalize (Nat.repr digits).toList = text at *
  generalize hplace : text.length - places = place
  have hbehind : (text.drop place).length = places := by
    rw [List.length_drop]
    omega
  refine ⟨⟨?_, fun c hc => hdigits.2 c (List.mem_of_mem_take hc)⟩, ?_,
    ⟨?_, fun c hc => hdigits.2 c (List.mem_of_mem_drop hc)⟩, ?_⟩
  · rw [List.ne_nil_iff_length_pos, List.length_take]
    omega
  · obtain ⟨before, rfl⟩ : ∃ before, place = before + 1 := ⟨place - 1, by omega⟩
    rw [hlead, List.take_succ_cons]
    exact Json.isWhole_cons hne _
  · rw [List.ne_nil_iff_length_pos, hbehind]
    exact hplaces
  · rw [List.take_append_drop, hvalue, hbehind]

theorem splits_behind {places : Nat} (h : (Nat.repr digits).toList.length ≤ places) :
    Splits ⟨digits, 0 - places⟩ ['0']
      (List.replicate (places - (Nat.repr digits).toList.length) '0' ++
        (Nat.repr digits).toList) := by
  have hdigits := Json.isDigits_repr digits
  refine ⟨Json.isDigits_zero, rfl, ⟨by simp, fun c hc => ?_⟩, ?_⟩
  · exact (List.mem_append.mp hc).elim isDigit_of_mem_zeros (hdigits.2 c)
  · have hlength : (List.replicate (places - (Nat.repr digits).toList.length) '0' ++
        (Nat.repr digits).toList).length = places := by
      rw [List.length_append, List.length_replicate]
      omega
    have hvalue := Json.ofDigitChars_repr digits
    rw [hlength, ← List.append_assoc, Nat.ofDigitChars_append, Nat.ofDigitChars_append,
      Nat.ofDigitChars_replicate_zero]
    exact congrArg (fun n => Decimal.units ⟨n, 0 - places⟩) hvalue

end Splits

theorem exists_splits_positional (hpos : 0 < decimal.digits) : ∃ whole fraction,
    decimal.positional.toList = whole ++ '.' :: fraction ∧ Splits decimal whole fraction := by
  obtain ⟨digits, exponent⟩ := decimal
  unfold positional
  cases exponent with
  | ofNat zeros =>
      refine ⟨_, _, ?_, splits_zeros hpos zeros⟩
      simp only [String.toList_append, toList_pushn]
      rfl
  | negSucc n =>
      have hexponent : Int.negSucc n = 0 - (n + 1 : Nat) := by omega
      dsimp only
      rw [hexponent, ← String.length_toList]
      split
      · rename_i hinside
        refine ⟨_, _, ?_, splits_inside hpos (Nat.succ_pos n) hinside⟩
        simp only [String.toList_append, String.toList_copy_take, String.toList_copy_drop,
          List.append_assoc]
        rfl
      · rename_i hbehind
        refine ⟨_, _, ?_, splits_behind (Nat.not_lt.mp hbehind)⟩
        simp only [String.toList_append, toList_pushn]
        rfl

theorem toList_scientific {lead : Char} {fraction : List Char} (plus : String)
    (hdigits : (Nat.repr decimal.digits).toList = lead :: fraction) :
    (decimal.scientific plus).toList = lead :: ((if fraction = [] then [] else '.' :: fraction) ++
      'e' :: ((if decimal.scientificExponent < 0 then "" else plus).toList ++
        (toString decimal.scientificExponent).toList)) := by
  have hfraction : ((Nat.repr decimal.digits).drop 1).copy.toList = fraction := by
    rw [String.toList_copy_drop, hdigits]
    rfl
  have hempty : ((Nat.repr decimal.digits).drop 1).copy.isEmpty = true ↔ fraction = [] := by
    rw [String.isEmpty_iff, ← String.toList_inj, hfraction]
    rfl
  have hpoint : (if ((Nat.repr decimal.digits).drop 1).copy.isEmpty then ""
      else "." ++ ((Nat.repr decimal.digits).drop 1).copy).toList =
      if fraction = [] then [] else '.' :: fraction := by
    by_cases hnone : fraction = []
    · rw [if_pos (hempty.mpr hnone), if_pos hnone]
      rfl
    · rw [if_neg (hnone ∘ hempty.mp), if_neg hnone, String.toList_append, hfraction]
      rfl
  unfold scientific
  simp only [String.toList_append, String.toList_copy_take, hdigits, hpoint, List.append_assoc]
  rfl

theorem scientificExponent_sub {lead : Char} {fraction : List Char}
    (hdigits : (Nat.repr decimal.digits).toList = lead :: fraction) :
    decimal.scientificExponent - fraction.length = decimal.exponent := by
  have hcount : digitCount decimal.digits = fraction.length + 1 := by
    rw [digitCount, ← String.length_toList, hdigits, List.length_cons]
  rw [scientificExponent, hcount]
  omega

end Decimal

namespace Json

open Double Decimal
open Lexeme (IsDigits)

section Floats

variable {negative : Bool} {whole fraction rest : List Char} {exponent : Option Int}
  {decimal : Decimal} {units : Nat}

theorem ofParts?_float (hpoint : ¬(fraction = [] ∧ exponent = none)) (h : Representable units)
    (hunits : Decimal.units ⟨Nat.ofDigitChars 10 (whole ++ fraction) 0,
      exponent.getD 0 - fraction.length⟩ = units) :
    ofParts? negative whole fraction exponent = some (.float (.finite negative units h)) := by
  have hread := toDouble_of_units negative h hunits
  rw [ofParts?, if_neg hpoint]
  simp only [hread]

theorem number?_positional (h : Representable units) (hunits : decimal.units = units)
    (hpos : 0 < decimal.digits) (hrest : Ends rest) :
    number? ((if negative then "-" else "").toList ++ (decimal.positional.toList ++ rest)) =
      some (.float (.finite negative units h), rest) := by
  obtain ⟨whole, fraction, htext, hsplits⟩ := exists_splits_positional hpos
  have hpoint : ∀ c ∈ ('.' :: (fraction ++ rest)).head?, ¬c.isDigit := by simp
  have hread := number?_parts negative hsplits.before hsplits.unpadded hpoint
    (fraction?_digits hsplits.behind hrest.not_isDigit) hrest.no_exponent
  have hparts : ofParts? negative whole fraction none = some (.float (.finite negative units h)) :=
    ofParts?_float (fun hnone => hsplits.behind.1 hnone.1) h
      (by rw [Option.getD_none, hsplits.units_eq, hunits])
  rw [htext, List.append_assoc, List.cons_append, hread, hparts, Option.map_some]

theorem number?_scientific {plus : String} (hplus : plus = "" ∨ plus = "+")
    (h : Representable units) (hunits : decimal.units = units) (hpos : 0 < decimal.digits)
    (hrest : Ends rest) :
    number? ((if negative then "-" else "").toList ++
      ((decimal.scientific plus).toList ++ rest)) =
      some (.float (.finite negative units h), rest) := by
  obtain ⟨lead, fraction, hdigits, hne⟩ := exists_leadingDigit decimal.digits hpos
  have hall := isDigits_repr decimal.digits
  have hvalue := ofDigitChars_repr decimal.digits
  rw [hdigits] at hall hvalue
  have hread := exponent?_signed hplus decimal.scientificExponent hrest
  rw [toList_scientific plus hdigits]
  generalize hmark : 'e' :: ((if decimal.scientificExponent < 0 then "" else plus).toList ++
    ((toString decimal.scientificExponent).toList ++ rest)) = mark at hread
  have hhead : ∀ c ∈ mark.head?, c = 'e' := by simp [← hmark]
  have hfraction : fraction? ((if fraction = [] then [] else '.' :: fraction) ++ mark) =
      some (fraction, mark) := by
    split
    · rename_i hnone
      rw [hnone, List.nil_append]
      exact fraction?_none fun c hc => by rw [hhead c hc]; decide
    · rename_i hsome
      refine fraction?_digits ⟨hsome, fun c hc => hall.2 c (List.mem_cons_of_mem _ hc)⟩ ?_
      exact fun c hc => by rw [hhead c hc]; decide
  have hbehind : ∀ c ∈ ((if fraction = [] then [] else '.' :: fraction) ++ mark).head?,
      ¬c.isDigit := by
    split
    · exact fun c hc => by rw [hhead c hc]; decide
    · simp
  have hparts : ofParts? negative [lead] fraction (some decimal.scientificExponent) =
      some (.float (.finite negative units h)) :=
    ofParts?_float (by simp) h (by
      rw [Option.getD_some, scientificExponent_sub hdigits, List.singleton_append, hvalue, hunits])
  have hlead : IsDigits [lead] := ⟨List.cons_ne_nil _ _, fun c hc =>
    hall.2 c (List.mem_of_mem_take (show c ∈ (lead :: fraction).take 1 from hc))⟩
  have hparsed := number?_parts negative hlead (isWhole_cons hne []) hbehind hfraction hread
  rw [hparts, Option.map_some] at hparsed
  rw [List.cons_append, List.append_assoc, List.cons_append, List.append_assoc, hmark]
  exact hparsed

/-- A finite double is read back from its text, in whatever layout it is written. -/
theorem number?_write {layout : Layout} (hplus : layout.plus = "" ∨ layout.plus = "+")
    (negative : Bool) (units : Nat) (h : Representable units) (hrest : Ends rest) :
    number? ((layout.write (.finite negative units h)).toList ++ rest) =
      some (.float (.finite negative units h), rest) := by
  unfold Layout.write
  dsimp only
  split
  · rename_i hzero
    subst hzero
    have hparts : ofParts? negative ['0'] ['0'] none = some (.float (.finite negative 0 h)) :=
      ofParts?_float (by simp) h (units_zero _)
    have hfraction := fraction?_digits isDigits_zero hrest.not_isDigit
    have hread := number?_parts negative isDigits_zero rfl (by simp) hfraction hrest.no_exponent
    rw [hparts, Option.map_some] at hread
    rw [String.toList_append, List.append_assoc]
    exact hread
  · rename_i hne
    have hpos := Nat.pos_of_ne_zero hne
    have hunits := units_shortest layout.tie h.1 hpos
    have hdigits : 0 < (shortest layout.tie units).digits := digits_pos (by rwa [hunits])
    generalize shortest layout.tie units = decimal at *
    rw [String.toList_append, List.append_assoc]
    by_cases hpoint : layout.isPositional decimal.scientificExponent
    · rw [if_pos hpoint]
      exact number?_positional h hunits hdigits hrest
    · rw [if_neg hpoint]
      exact number?_scientific hplus h hunits hdigits hrest

end Floats

end Json

end Scriptlet
