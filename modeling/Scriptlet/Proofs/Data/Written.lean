import Scriptlet.Proofs.Data.Numbers
import Scriptlet.Proofs.Data.Texts

/-! Data that is written out reads back. Only numbers that are not finite are lost, which are
written as nothing. -/

namespace Scriptlet

namespace Json

def keptFloat : Double → Json
  | .finite negative units h => .float (.finite negative units h)
  | _ => .null

mutual

/-- What the text of some data still says: everything but which number that is not finite it was. -/
@[simp] def kept : Json → Json
  | .float value => keptFloat value
  | .array items => .array (keptItems items)
  | .object fields => .object (keptFields fields)
  | .null => .null
  | .bool value => .bool value
  | .int value => .int value
  | .string value => .string value

@[simp] def keptItems : List Json → List Json
  | [] => []
  | item :: rest => item.kept :: keptItems rest

@[simp] def keptFields : List (String × Json) → List (String × Json)
  | [] => []
  | (key, value) :: rest => (key, value.kept) :: keptFields rest

end

/-! Blanks are skipped before every value and every key. -/

section Blanks

variable {blanks text : List Char}

theorem skipBlanks_append (hblanks : ∀ c ∈ blanks, isBlank c) (text : List Char) :
    skipBlanks (blanks ++ text) = skipBlanks text :=
  List.dropWhile_append_of_pos hblanks

theorem skipBlanks_cons {c : Char} (hc : isBlank c = false) (text : List Char) :
    skipBlanks (c :: text) = c :: text :=
  List.dropWhile_cons_of_neg (by simp [hc])

theorem value?_blanks (hblanks : ∀ c ∈ blanks, isBlank c) (fuel : Nat) (text : List Char) :
    value? fuel (blanks ++ text) = value? fuel text := by
  cases fuel with
  | zero => rfl
  | succ fuel => rw [value?, value?, skipBlanks_append hblanks]

theorem items?_blanks (hblanks : ∀ c ∈ blanks, isBlank c) (fuel : Nat) (text : List Char) :
    items? fuel (blanks ++ text) = items? fuel text := by
  cases fuel with
  | zero => rfl
  | succ fuel => rw [items?, items?, value?_blanks hblanks]

theorem fields?_blanks (hblanks : ∀ c ∈ blanks, isBlank c) (fuel : Nat) (text : List Char) :
    fields? fuel (blanks ++ text) = fields? fuel text := by
  cases fuel with
  | zero => rfl
  | succ fuel => rw [fields?, fields?, key?, key?, skipBlanks_append hblanks]

theorem isBlank_of_mem_line {level : Nat} {c : Char} (h : c ∈ '\n' :: (margin level).toList) :
    isBlank c := by
  rcases List.mem_cons.mp h with rfl | hmargin
  · rfl
  · rw [margin, Decimal.toList_pushn] at hmargin
    rw [List.eq_of_mem_replicate hmargin]
    rfl

end Blanks

section Heads

variable {text rest : List Char} {data : Json} {fuel : Nat}

theorem head_of_number? (h : number? text = some (data, rest)) :
    ∃ c more, text = c :: more ∧ (c = '-' ∨ c.isDigit) := by
  cases text with
  | nil => cases h
  | cons c more =>
      refine ⟨c, more, rfl, ?_⟩
      by_contra hneither
      obtain ⟨hsign, hdigit⟩ := not_or.mp hneither
      have hunsigned : number? (c :: more) = unsigned? false (c :: more) :=
        number?.eq_2 _ fun _ heq => hsign (List.cons.inj heq).1
      rw [hunsigned, unsigned?, List.takeWhile_cons_of_neg hdigit] at h
      cases h

theorem value?_number (h : number? text = some (data, rest)) (fuel : Nat) :
    value? (fuel + 1) text = some (data, rest) := by
  obtain ⟨c, more, rfl, hc⟩ := head_of_number? h
  have hblank : isBlank c = false := by
    rcases hc with rfl | hdigit
    · rfl
    · by_contra hblank
      simp only [isBlank, Bool.not_eq_false, Bool.or_eq_true, beq_iff_eq] at hblank
      rcases hblank with ((rfl | rfl) | rfl) | rfl <;> exact absurd hdigit (by decide)
  have hne : c ≠ '"' ∧ c ≠ '[' ∧ c ≠ '\x7b' := by
    refine ⟨?_, ?_, ?_⟩ <;> rintro rfl <;> exact absurd hc (by decide)
  have halpha : ¬c.isAlpha := by
    rcases hc with rfl | hdigit
    · decide
    · exact fun halpha => Lexeme.not_isWordStart_of_isDigit hdigit (by
        rw [Lexeme.isWordStart, halpha, Bool.true_or])
  rw [value?, skipBlanks_cons hblank]
  simp only [if_neg hne.1, if_neg hne.2.1, if_neg hne.2.2, if_neg halpha, h]

theorem head_of_value? (h : value? fuel text = some (data, rest)) :
    (skipBlanks text).head? ≠ some ']' := by
  intro hhead
  cases fuel with
  | zero => cases h
  | succ fuel =>
      rw [value?] at h
      cases hvisible : skipBlanks text with
      | nil =>
          rw [hvisible] at hhead
          cases hhead
      | cons c more =>
          rw [hvisible] at h hhead
          obtain rfl : c = ']' := Option.some.inj hhead
          have hnumber : number? (']' :: more) = some (data, rest) := h
          obtain ⟨_, _, hcons, hc⟩ := head_of_number? hnumber
          obtain ⟨rfl, -⟩ := List.cons.inj hcons
          exact absurd hc (by decide)

theorem head_of_items? {items : List Json} (h : items? fuel text = some (items, rest)) :
    (skipBlanks text).head? ≠ some ']' := by
  cases fuel with
  | zero => cases h
  | succ fuel =>
      rw [items?, Option.bind_eq_bind, Option.bind_eq_some_iff] at h
      obtain ⟨first, hfirst, -⟩ := h
      exact head_of_value? hfirst

end Heads

def itemsText (level : Nat) : List Json → List Char
  | [] => []
  | item :: rest => (write level item).toList ++ (writeItems level rest).toList

def fieldsText (level : Nat) : List (String × Json) → List Char
  | [] => []
  | (key, value) :: rest => (quote key).toList ++ (": ".toList ++
      ((write level value).toList ++ (writeFields level rest).toList))

section Lines

variable {level : Nat} {rest : List Char}

theorem toList_writeItems (item : Json) (more : List Json) :
    (writeItems level (item :: more)).toList =
      ',' :: (('\n' :: (margin level).toList) ++ itemsText level (item :: more)) := by
  simp only [writeItems, itemsText, String.toList_append, List.append_assoc]
  rfl

theorem toList_writeFields (field : String × Json) (more : List (String × Json)) :
    (writeFields level (field :: more)).toList =
      ',' :: (('\n' :: (margin level).toList) ++ fieldsText level (field :: more)) := by
  simp only [writeFields, fieldsText, String.toList_append, List.append_assoc]
  rfl

theorem toList_write_array (item : Json) (more : List Json) :
    (write level (.array (item :: more))).toList =
      '[' :: (('\n' :: (margin (level + 1)).toList) ++ (itemsText (level + 1) (item :: more) ++
        (('\n' :: (margin level).toList) ++ [']']))) := by
  simp only [write, itemsText, String.toList_append, List.append_assoc]
  rfl

theorem toList_write_object (field : String × Json) (more : List (String × Json)) :
    (write level (.object (field :: more))).toList =
      '\x7b' :: (('\n' :: (margin (level + 1)).toList) ++ (fieldsText (level + 1) (field :: more) ++
        (('\n' :: (margin level).toList) ++ ['\x7d']))) := by
  simp only [write, fieldsText, String.toList_append, List.append_assoc]
  rfl

end Lines

/-! What is read behind the first character of a value. -/

section Marks

variable {chars rest : List Char} {fuel : Nat}

theorem value?_null (fuel : Nat) (rest : List Char) :
    value? (fuel + 1) ("null".toList ++ rest) = some (.null, rest) := rfl

theorem value?_bool (value : Bool) (fuel : Nat) (rest : List Char) :
    value? (fuel + 1) ((if value then "true" else "false").toList ++ rest) =
      some (.bool value, rest) := by
  cases value <;> rfl

theorem value?_quoted (text : String) (fuel : Nat) (rest : List Char) :
    value? (fuel + 1) ((quote text).toList ++ rest) = some (.string text, rest) := by
  have hread := text?_quote text rest
  rw [toList_quote, List.tail_cons] at hread
  rw [toList_quote, List.cons_append, value?, skipBlanks_cons rfl]
  simp only [if_true, hread, Option.map_some]

theorem value?_array {items : List Json} (hhead : (skipBlanks chars).head? ≠ some ']')
    (h : items? fuel chars = some (items, rest)) :
    value? (fuel + 1) ('[' :: chars) = some (.array items, rest) := by
  rw [value?, skipBlanks_cons rfl]
  simp only [Char.reduceEq, if_false, if_true, if_neg hhead, h, Option.map_some]

theorem value?_object {fields : List (String × Json)}
    (hhead : (skipBlanks chars).head? ≠ some '\x7d')
    (h : fields? fuel chars = some (fields, rest)) :
    value? (fuel + 1) ('\x7b' :: chars) = some (.object fields, rest) := by
  rw [value?, skipBlanks_cons rfl]
  simp only [Char.reduceEq, if_false, if_true, if_neg hhead, h, Option.map_some]

theorem key?_quoted (key : String) (chars : List Char) :
    key? ((quote key).toList ++ (": ".toList ++ chars)) = some (key, ' ' :: chars) := by
  have hread := text?_quote key (": ".toList ++ chars)
  rw [toList_quote, List.tail_cons] at hread
  rw [toList_quote, List.cons_append, key?, skipBlanks_cons rfl]
  simp only [hread, Option.bind_eq_bind, Option.bind_some]
  rfl

variable {item value : Json} {items : List Json} {key : String} {fields : List (String × Json)}
  {behind after : List Char}

theorem items?_last (hitem : value? fuel chars = some (item, behind))
    (hclose : skipBlanks behind = ']' :: rest) :
    items? (fuel + 1) chars = some ([item], rest) := by
  simp only [items?, hitem, hclose, Option.bind_eq_bind, Option.bind_some]

theorem items?_more (hitem : value? fuel chars = some (item, behind))
    (hcomma : skipBlanks behind = ',' :: after) (hmore : items? fuel after = some (items, rest)) :
    items? (fuel + 1) chars = some (item :: items, rest) := by
  simp only [items?, hitem, hcomma, hmore, Option.bind_eq_bind, Option.bind_some, Option.map_some]

theorem fields?_last (hkey : key? chars = some (key, after))
    (hvalue : value? fuel after = some (value, behind))
    (hclose : skipBlanks behind = '\x7d' :: rest) :
    fields? (fuel + 1) chars = some ([(key, value)], rest) := by
  simp only [fields?, hkey, hvalue, hclose, Option.bind_eq_bind, Option.bind_some]

theorem fields?_more {next : List Char} (hkey : key? chars = some (key, after))
    (hvalue : value? fuel after = some (value, behind))
    (hcomma : skipBlanks behind = ',' :: next) (hmore : fields? fuel next = some (fields, rest)) :
    fields? (fuel + 1) chars = some ((key, value) :: fields, rest) := by
  simp only [fields?, hkey, hvalue, hcomma, hmore, Option.bind_eq_bind, Option.bind_some,
    Option.map_some]

theorem value?_behind_colon (fuel : Nat) (chars : List Char) :
    value? fuel (' ' :: chars) = value? fuel chars := by
  have hblanks : ∀ c ∈ [' '], isBlank c := by simp [isBlank]
  exact value?_blanks hblanks fuel chars

theorem skipBlanks_close (level : Nat) {mark : Char} (hmark : isBlank mark = false)
    (rest : List Char) :
    skipBlanks (('\n' :: (margin level).toList) ++ mark :: rest) = mark :: rest := by
  rw [skipBlanks_append fun _ => isBlank_of_mem_line, skipBlanks_cons hmark]

theorem ends_line (level : Nat) (rest : List Char) :
    Ends (('\n' :: (margin level).toList) ++ rest) := by
  simp [Ends]

end Marks

mutual

theorem value?_write : (data : Json) → (level fuel : Nat) → (rest : List Char) →
    (write level data).toList.length < fuel → Ends rest →
    value? fuel ((write level data).toList ++ rest) = some (data.kept, rest)
  | _, _, 0, _ => fun hfuel => absurd hfuel (Nat.not_lt_zero _)
  | .null, _, fuel + 1, rest => fun _ _ => value?_null fuel rest
  | .bool value, _, fuel + 1, rest => fun _ _ => value?_bool value fuel rest
  | .int value, _, fuel + 1, rest => fun _ hrest => value?_number (number?_int value hrest) fuel
  | .float .nan, _, fuel + 1, rest => fun _ _ => value?_null fuel rest
  | .float (.infinite _), _, fuel + 1, rest => fun _ _ => value?_null fuel rest
  | .float (.finite negative units h), _, fuel + 1, rest => fun _ hrest =>
      value?_number (number?_write (.inr rfl) negative units h hrest) fuel
  | .string value, _, fuel + 1, rest => fun _ _ => value?_quoted value fuel rest
  | .array [], level, fuel + 1, rest => fun _ _ => by
      have htext : write level (.array []) = "[]" := rfl
      rw [htext]
      rfl
  | .array (item :: more), level, fuel + 1, rest => fun hfuel _ => by
      rw [toList_write_array] at hfuel ⊢
      simp only [List.length_cons, List.length_append] at hfuel
      have hitems := items?_write (item :: more) (level + 1) level fuel rest (by omega)
        (List.cons_ne_nil _ _)
      rw [List.cons_append, List.append_assoc, List.append_assoc, List.append_assoc,
        List.singleton_append]
      refine value?_array ?_ ((items?_blanks (fun _ => isBlank_of_mem_line) _ _).trans hitems)
      rw [skipBlanks_append fun _ => isBlank_of_mem_line]
      exact head_of_items? hitems
  | .object [], level, fuel + 1, rest => fun _ _ => by
      have htext : write level (.object []) = "\x7b\x7d" := rfl
      rw [htext]
      rfl
  | .object (field :: more), level, fuel + 1, rest => fun hfuel _ => by
      rw [toList_write_object] at hfuel ⊢
      simp only [List.length_cons, List.length_append] at hfuel
      have hfields := fields?_write (field :: more) (level + 1) level fuel rest (by omega)
        (List.cons_ne_nil _ _)
      rw [List.cons_append, List.append_assoc, List.append_assoc, List.append_assoc,
        List.singleton_append]
      refine value?_object ?_ ((fields?_blanks (fun _ => isBlank_of_mem_line) _ _).trans hfields)
      rw [skipBlanks_append fun _ => isBlank_of_mem_line]
      obtain ⟨key, value⟩ := field
      rw [fieldsText, toList_quote, List.cons_append, List.cons_append, skipBlanks_cons rfl]
      simp

theorem items?_write : (items : List Json) → (level close fuel : Nat) → (rest : List Char) →
    (itemsText level items).length + 1 < fuel → items ≠ [] →
    items? fuel (itemsText level items ++ (('\n' :: (margin close).toList) ++ ']' :: rest)) =
      some (keptItems items, rest)
  | _, _, _, 0, _, hfuel, _ => absurd hfuel (Nat.not_lt_zero _)
  | [item], level, close, fuel + 1, rest, hfuel, _ => by
      have htext : itemsText level [item] = (write level item).toList := List.append_nil _
      rw [htext] at hfuel ⊢
      exact items?_last (value?_write item level fuel _ (by omega) (ends_line _ _))
        (skipBlanks_close close rfl rest)
  | item :: next :: more, level, close, fuel + 1, rest, hfuel, _ => by
      rw [itemsText, toList_writeItems] at hfuel ⊢
      simp only [List.length_append, List.length_cons] at hfuel
      have hmore := items?_write (next :: more) level close fuel rest (by omega)
        (List.cons_ne_nil _ _)
      rw [← items?_blanks fun c => @isBlank_of_mem_line level c] at hmore
      rw [List.append_assoc, List.cons_append, List.append_assoc]
      exact items?_more (value?_write item level fuel _ (by omega) (by simp [Ends]))
        (skipBlanks_cons rfl _) hmore

theorem fields?_write : (fields : List (String × Json)) → (level close fuel : Nat) →
    (rest : List Char) → (fieldsText level fields).length + 1 < fuel → fields ≠ [] →
    fields? fuel (fieldsText level fields ++ (('\n' :: (margin close).toList) ++ '\x7d' :: rest)) =
      some (keptFields fields, rest)
  | _, _, _, 0, _, hfuel, _ => absurd hfuel (Nat.not_lt_zero _)
  | [(key, value)], level, close, fuel + 1, rest, hfuel, _ => by
      have htext : fieldsText level [(key, value)] =
          (quote key).toList ++ (": ".toList ++ (write level value).toList) := by
        simp [fieldsText, writeFields]
      rw [htext] at hfuel ⊢
      simp only [List.length_append] at hfuel
      rw [List.append_assoc, List.append_assoc]
      refine fields?_last (key?_quoted key _) ?_ (skipBlanks_close close rfl rest)
      rw [value?_behind_colon]
      exact value?_write value level fuel _ (by omega) (ends_line _ _)
  | (key, value) :: next :: more, level, close, fuel + 1, rest, hfuel, _ => by
      rw [fieldsText, toList_writeFields] at hfuel ⊢
      simp only [List.length_append, List.length_cons] at hfuel
      have hmore := fields?_write (next :: more) level close fuel rest (by omega)
        (List.cons_ne_nil _ _)
      rw [← fields?_blanks fun c => @isBlank_of_mem_line level c] at hmore
      rw [List.append_assoc, List.append_assoc, List.append_assoc, List.cons_append,
        List.append_assoc]
      refine fields?_more (key?_quoted key _) ?_ (skipBlanks_cons rfl _) hmore
      rw [value?_behind_colon]
      exact value?_write value level fuel _ (by omega) (by simp [Ends])

end

/-- The text of some data reads back, and only numbers that are not finite are lost. -/
theorem read?_pretty (data : Json) : read? data.pretty = some data.kept := by
  have hfuel : (write 0 data).toList.length < (write 0 data).length + 1 := by
    rw [String.length_toList]
    exact Nat.lt_succ_self _
  have hread := value?_write data 0 _ [] hfuel (by simp [Ends])
  rw [List.append_nil] at hread
  rw [read?, pretty, hread]
  rfl

end Json

end Scriptlet
