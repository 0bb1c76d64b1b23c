import Scriptlet.Proofs.Data.Reader

/-! Quoted texts read back, whatever characters are in them. -/

namespace Scriptlet

namespace Json

section Escapes

theorem hexValue?_hexDigit (n : Nat) : hexValue? (hexDigit n) = some (n % 16) := by
  have hall : ∀ k < 16, hexValue? (Nat.digitChar k) = some k := by decide
  exact hall _ (Nat.mod_lt _ (by decide))

theorem codePoint?_control {c : Char} (h : c.toNat < 32) (rest : List Char) :
    codePoint? ('0' :: '0' :: hexDigit (c.toNat / 16) :: hexDigit c.toNat :: rest) =
      some (c, rest) := by
  have hzero : hexValue? '0' = some 0 := rfl
  have hvalue : 16 * (16 * (16 * 0 + 0) + c.toNat / 16 % 16) + c.toNat % 16 = c.toNat := by omega
  have hsmall : c.toNat < 0xd800 ∨ 0xe000 ≤ c.toNat := .inl (by omega)
  simp only [codePoint?, codeUnit?, hzero, hexValue?_hexDigit, Option.bind_eq_bind,
    Option.bind_some, Option.pure_def, hvalue, if_pos hsmall, Char.ofNat_toNat]

variable {c meant : Char} {fuel : Nat} {chars rest : List Char}

theorem characters?_escaped (h : escaped? chars = some (meant, rest)) :
    characters? (fuel + 1) ('\\' :: chars) =
      (characters? fuel rest).map fun (more, rest) => (meant :: more, rest) := by
  simp only [characters?, Char.reduceEq, if_false, if_true, h, Option.bind_eq_bind,
    Option.bind_some]

theorem characters?_plain (hquote : c ≠ '"') (hslash : c ≠ '\\') (hlarge : 32 ≤ c.toNat) :
    characters? (fuel + 1) (c :: rest) =
      (characters? fuel rest).map fun (more, rest) => (c :: more, rest) := by
  rw [characters?, if_neg hquote, if_neg hslash, if_neg (Nat.not_lt.mpr hlarge)]

theorem characters?_escape (c : Char) (fuel : Nat) (rest : List Char) :
    characters? (fuel + 1) ((escape c).toList ++ rest) =
      (characters? fuel rest).map fun (more, rest) => (c :: more, rest) := by
  unfold escape
  -- the seven characters that have an escape of their own
  iterate 7
    split
    · rename_i h
      subst h
      exact characters?_escaped rfl
  split
  · rename_i hcontrol
    have hread : escaped? ("u00".toList ++
        hexDigit (c.toNat / 16) :: hexDigit c.toNat :: rest) = some (c, rest) :=
      codePoint?_control hcontrol rest
    rw [String.toList_append, String.toList_append, String.toList_singleton,
      String.toList_singleton, List.append_assoc, List.append_assoc]
    exact characters?_escaped hread
  · rename_i hquote hslash _ _ _ _ _ hlarge
    rw [String.toList_singleton]
    exact characters?_plain hquote hslash (Nat.not_lt.mp hlarge)

theorem characters?_escapes (rest : List Char) : (chars : List Char) → (fuel : Nat) →
    chars.length < fuel →
    characters? fuel (chars.flatMap (fun c => (escape c).toList) ++ '"' :: rest) =
      some (chars, rest)
  | _, 0, h => absurd h (Nat.not_lt_zero _)
  | [], fuel + 1, _ => by
      rw [List.flatMap_nil, List.nil_append, characters?, if_pos rfl]
  | c :: chars, fuel + 1, h => by
      rw [List.flatMap_cons, List.append_assoc, characters?_escape,
        characters?_escapes rest chars fuel (Nat.lt_of_succ_lt_succ h)]
      rfl

end Escapes

theorem toList_quote (text : String) : (quote text).toList =
    '"' :: (text.toList.flatMap (fun c => (escape c).toList) ++ ['"']) := by
  have hfold : ∀ (chars : List Char) (before : String),
      (chars.foldl (fun written c => written ++ escape c) before).toList =
        before.toList ++ chars.flatMap (fun c => (escape c).toList) := by
    intro chars
    induction chars with
    | nil =>
        intro before
        rw [List.flatMap_nil, List.append_nil]
        rfl
    | cons c chars ih =>
        intro before
        rw [List.foldl_cons, ih, String.toList_append, List.flatMap_cons, List.append_assoc]
  rw [quote, String.toList_append, String.toList_append, String.foldl_eq_foldl_toList, hfold]
  rfl

theorem escape_length_pos (c : Char) : 0 < (escape c).toList.length := by
  unfold escape
  repeat' split
  all_goals simp

theorem length_le_escapes (chars : List Char) :
    chars.length ≤ (chars.flatMap (fun c => (escape c).toList)).length := by
  induction chars with
  | nil => exact Nat.le_refl 0
  | cons c chars ih =>
      rw [List.flatMap_cons, List.length_append, List.length_cons]
      have hpos := escape_length_pos c
      omega

theorem text?_quote (text : String) (rest : List Char) :
    text? ((quote text).toList.tail ++ rest) = some (text, rest) := by
  have hlength := length_le_escapes text.toList
  rw [toList_quote, List.tail_cons, List.append_assoc, List.singleton_append, text?,
    characters?_escapes rest text.toList _ ?_]
  · simp only [Option.map_some, String.ofList_toList]
  · simp only [List.length_append, List.length_cons]
    omega

end Json

end Scriptlet
