import Scriptlet.Proofs.Data.Numbers
import Scriptlet.Proofs.Dump.Form
import Scriptlet.Proofs.Grammar.Names

/-! Forms read back. A form is read up to its own end whatever follows it, as long as what follows
does not go on with it: nothing that belongs to a word, no colon and no arrow. -/

namespace Scriptlet

def TypeExpr.Legible (written : TypeExpr) : Prop :=
  ∀ name, .name name ∈ written.symbols → IsName name

namespace Form

structure Stops (rest : List Char) : Prop where
  head : ∀ c ∈ rest.head?, ¬isWordChar c ∧ c ≠ ':'
  no_arrow : ¬arrow <+: rest

/-- The text is a word, and not one that could be taken for an arrow. -/
structure IsFormWord (text : List Char) : Prop where
  ne_nil : text ≠ []
  chars : ∀ c ∈ text, isWordChar c
  no_arrow : ¬['-', '>'] <+: text

instance (text : List Char) : Decidable (IsFormWord text) :=
  decidable_of_iff (text ≠ [] ∧ text.all isWordChar ∧ ¬['-', '>'] <+: text)
    ⟨fun h => ⟨h.1, List.all_eq_true.mp h.2.1, h.2.2⟩,
      fun h => ⟨h.ne_nil, List.all_eq_true.mpr h.chars, h.no_arrow⟩⟩

mutual

def Legible : Form → Prop
  | .quoted text => '"' ∉ text.toList
  | .word text declared => IsFormWord text.toList ∧ ∀ written ∈ declared, written.Legible
  | .list items result => AllLegible items ∧ ∀ written ∈ result, written.Legible

def AllLegible : List Form → Prop
  | [] => True
  | form :: rest => form.Legible ∧ AllLegible rest

end

@[simp] theorem texts_eq_map (forms : List Form) : texts forms = forms.map text := by
  induction forms with
  | nil => rfl
  | cons form rest ih => simp [texts, ih]

@[simp] theorem allPlaceless_eq_map (forms : List Form) :
    allPlaceless forms = forms.map placeless := by
  induction forms with
  | nil => rfl
  | cons form rest ih => simp [allPlaceless, ih]

@[simp] theorem allLegible_iff {forms : List Form} :
    AllLegible forms ↔ ∀ form ∈ forms, form.Legible := by
  induction forms with
  | nil => simp [AllLegible]
  | cons form rest ih => simp [AllLegible, ih]

section Words

variable {word rest : List Char}

theorem isWordChar_of {p : Char → Bool} (h : wordEnds.all fun d => !p d) {c : Char} (hc : p c) :
    isWordChar c := by
  unfold isWordChar
  rw [Bool.not_eq_true']
  refine Bool.eq_false_iff.mpr fun hmem => ?_
  have hnot := List.all_eq_true.mp h c (List.contains_iff_mem.mp hmem)
  simp [hc] at hnot

theorem not_isSeparator_of_isWordChar {c : Char} (h : isWordChar c) :
    ¬isSeparator c ∧ c ≠ ')' := by
  constructor
  · intro hseparator
    rcases Bool.or_eq_true_iff.mp hseparator with hc | hc <;> obtain rfl := eq_of_beq hc <;>
      exact absurd h (by decide)
  · rintro rfl
    exact absurd h (by decide)

theorem stops_of_head {c : Char} (hc : ¬isWordChar c) (hcolon : c ≠ ':') (hspace : c ≠ ' ') :
    Stops (c :: rest) := by
  refine ⟨fun d hd => ?_, fun harrow => ?_⟩
  · obtain rfl := Option.some.inj hd
    exact ⟨hc, hcolon⟩
  · obtain ⟨_, h⟩ := harrow
    exact hspace (List.cons.inj h).1.symm

theorem stops_closing (rest : List Char) : Stops (')' :: rest) :=
  stops_of_head (by decide) (by decide) (by decide)

theorem stops_line (rest : List Char) : Stops ('\n' :: rest) :=
  stops_of_head (by decide) (by decide) (by decide)

theorem stops_space {c : Char} (hc : c ≠ '-') : Stops (' ' :: c :: rest) := by
  refine ⟨fun d hd => ?_, fun harrow => ?_⟩
  · obtain rfl := Option.some.inj hd
    exact ⟨by decide, by decide⟩
  · obtain ⟨-, hsecond⟩ := List.cons_prefix_cons.mp harrow
    exact hc (List.cons_prefix_cons.mp hsecond).1.symm

theorem stops_space_word (h : IsFormWord word) (hrest : ∀ c ∈ rest.head?, ¬isWordChar c) :
    Stops (' ' :: (word ++ rest)) := by
  refine ⟨fun c hc => ?_, fun harrow => h.no_arrow ?_⟩
  · obtain rfl := Option.some.inj hc
    exact ⟨by decide, by decide⟩
  · obtain ⟨-, hfirst⟩ := List.cons_prefix_cons.mp harrow
    obtain ⟨c, more, rfl⟩ := List.exists_cons_of_ne_nil h.ne_nil
    obtain ⟨rfl, hsecond⟩ := List.cons_prefix_cons.mp hfirst
    cases more with
    | nil =>
        -- the second half of the arrow would follow the word
        cases rest with
        | nil => simp at hsecond
        | cons d rest =>
            obtain ⟨rfl, _⟩ := List.cons_prefix_cons.mp hsecond
            exact absurd (by decide) (hrest '>' rfl)
    | cons d more =>
        obtain ⟨rfl, _⟩ := List.cons_prefix_cons.mp hsecond
        exact List.prefix_append ['-', '>'] more

end Words

section Items

variable {α β : Type} {item : List Char → Option (β × List Char)} {write : α → List Char}
  {value : α → β} {separator rest : List Char} {items : List α}

theorem intercalate_cons (separator first : List Char) (more : List (List Char)) :
    separator.intercalate (first :: more) = first ++ more.flatMap (separator ++ ·) := by
  induction more generalizing first with
  | nil => simp
  | cons next rest ih => simp [ih, List.append_assoc]

theorem length_intercalate (separator : List Char) {pieces : List (List Char)}
    (hpieces : ∀ piece ∈ pieces, piece ≠ []) :
    pieces.length ≤ (separator.intercalate pieces).length ∧
      ∀ piece ∈ pieces, piece.length ≤ (separator.intercalate pieces).length := by
  induction pieces with
  | nil => simp
  | cons first more ih =>
      obtain ⟨hfirst, hmore⟩ := List.forall_mem_cons.mp hpieces
      have hpos := List.length_pos_iff.mpr hfirst
      obtain ⟨hcount, hlengths⟩ := ih hmore
      cases more with
      | nil => simpa using Nat.succ_le_of_lt hpos
      | cons next rest =>
          rw [List.intercalate_cons_cons, List.length_append, List.length_append]
          refine ⟨?_, List.forall_mem_cons.mpr ⟨by omega, fun piece hpiece => ?_⟩⟩
          · rw [List.length_cons]
            omega
          · have := hlengths piece hpiece
            omega

/-- An item that begins like one, and stops what stands before it if a separator is between. -/
structure Separable (separator piece : List Char) : Prop where
  head : ∃ c more, piece = c :: more ∧ ¬isSeparator c ∧ c ≠ ')'
  stops : ∀ rest, Stops rest → Stops (separator ++ (piece ++ rest))

theorem Separable.ne_nil {piece : List Char} (h : Separable separator piece) : piece ≠ [] := by
  obtain ⟨c, more, rfl, _⟩ := h.head
  exact List.cons_ne_nil c more

theorem items?_separator (hseparator : separator.all isSeparator) (fuel : Nat)
    (text : List Char) : items? item fuel (separator ++ text) = items? item fuel text := by
  cases fuel with
  | zero => rfl
  | succ fuel => simp only [items?, List.dropWhile_append_of_pos (List.all_eq_true.mp hseparator)]

theorem items?_flatMap (hseparator : separator.all isSeparator)
    (hitems : ∀ a ∈ items, Separable separator (write a))
    (hread : ∀ a ∈ items, ∀ rest, Stops rest → item (write a ++ rest) = some (value a, rest))
    {fuel : Nat} (hfuel : items.length < fuel) :
    items? item fuel (items.flatMap (fun a => separator ++ write a) ++ ')' :: rest) =
        some (items.map value, rest) ∧
      Stops (items.flatMap (fun a => separator ++ write a) ++ ')' :: rest) := by
  obtain ⟨fuel, rfl⟩ : ∃ less, fuel = less + 1 := ⟨fuel - 1, by omega⟩
  induction items generalizing fuel with
  | nil => exact ⟨rfl, stops_closing rest⟩
  | cons a more ih =>
      obtain ⟨hseparable, hmore⟩ := List.forall_mem_cons.mp hitems
      obtain ⟨hfirst, hothers⟩ := List.forall_mem_cons.mp hread
      obtain ⟨less, rfl⟩ : ∃ less, fuel = less + 1 :=
        ⟨fuel - 1, by rw [List.length_cons] at hfuel; omega⟩
      obtain ⟨hrest, hstops⟩ := ih hmore hothers less (by simpa using hfuel)
      obtain ⟨c, piece, hpiece, hc, hclosing⟩ := hseparable.head
      rw [List.flatMap_cons, List.append_assoc, List.append_assoc]
      refine ⟨?_, hseparable.stops _ hstops⟩
      have hnext := hfirst _ hstops
      rw [items?_separator hseparator, items?]
      rw [hpiece, List.cons_append] at hnext ⊢
      simp only [List.dropWhile_cons_of_neg hc, List.head?_cons, Option.some.injEq, hclosing,
        if_false, hnext, Option.bind_eq_bind, Option.bind_some, hrest, Option.pure_def,
        List.map_cons]

/-- The reader reads the text up to its end, with as much fuel as the text is long. -/
def ReadsBack (read : Nat → List Char → Option (β × List Char)) (text : List Char) (value : β) :
    Prop :=
  ∀ fuel rest, text.length ≤ fuel → Stops rest → read fuel (text ++ rest) = some (value, rest)

variable {read : Nat → List Char → Option (β × List Char)} {fuel : Nat}

theorem items?_intercalate (hseparator : separator.all isSeparator)
    (hitems : ∀ a ∈ items, Separable separator (write a))
    (hread : ∀ a ∈ items, ReadsBack read (write a) (value a))
    (hfuel : (separator.intercalate (items.map write)).length < fuel) :
    items? (read fuel) fuel (separator.intercalate (items.map write) ++ ')' :: rest) =
      some (items.map value, rest) := by
  have hpieces : ∀ piece ∈ items.map write, piece ≠ [] := fun piece hpiece => by
    obtain ⟨a, ha, rfl⟩ := List.mem_map.mp hpiece
    exact (hitems a ha).ne_nil
  obtain ⟨hcount, hlengths⟩ := length_intercalate separator hpieces
  rw [List.length_map] at hcount
  have hall := (@items?_flatMap _ _ _ _ _ _ rest _ hseparator hitems (fun a ha rest hrest => by
    have := hlengths _ (List.mem_map_of_mem ha)
    exact hread a ha fuel rest (by omega) hrest) fuel (by omega)).1
  cases items with
  | nil => exact hall
  | cons a more =>
      rw [← hall, List.map_cons, intercalate_cons, List.flatMap_cons, List.append_assoc,
        List.append_assoc, List.append_assoc, items?_separator hseparator, List.flatMap_map]

theorem behind?_behind {mark : List Char} {written : Option TypeExpr}
    (hread : ∀ a ∈ written, ReadsBack type? a.sexp.toList (a.relabel .placeless))
    (hfuel : (behind mark written).length ≤ fuel) (hstops : Stops rest) (hrest : ¬mark <+: rest) :
    behind? mark (type? fuel) (behind mark written ++ rest) =
      some (written.map (TypeExpr.relabel .placeless), rest) := by
  cases written with
  | none => simp [behind, behind?, List.isPrefixOf_iff_prefix, hrest]
  | some a =>
      have htext : behind mark (some a) ++ rest = mark ++ (a.sexp.toList ++ rest) := by
        simp [behind]
      rw [behind, List.length_append] at hfuel
      rw [behind?, htext, if_pos (List.isPrefixOf_iff_prefix.mpr (List.prefix_append _ _)),
        List.drop_left, hread a rfl fuel rest (by omega) hstops]
      rfl

end Items

end Form

open Form
open Lexeme (isWordPart)

namespace IsName

variable {name : String}

theorem chars (h : IsName name) : ∀ c ∈ name.toList, isWordChar c :=
  fun c hc => isWordChar_of (p := isWordPart) (by decide) (h.word.part c hc)

theorem ne_fn (h : IsName name) : name.toList ≠ ['f', 'n'] := by
  intro hname
  exact h.plain .fnWord (by decide) (String.toList_inj.mp hname.symm)

end IsName

namespace TypeExpr

variable {params : List TypeExpr} {result : Option TypeExpr} {span : Span}

theorem sexps_eq_map (written : List TypeExpr) : sexps written = written.map sexp := by
  induction written with
  | nil => rfl
  | cons first rest ih => simp [sexps, ih]

theorem toList_sexp_function (params : List TypeExpr) (result : Option TypeExpr) (span : Span) :
    (function params result span).sexp.toList =
      ['f', 'n'] ++ '(' :: ([',', ' '].intercalate (params.map (·.sexp.toList)) ++
        ')' :: Form.behind arrow result) := by
  cases result <;> simp [sexp, sexps_eq_map, Form.behind, arrow, String.toList_intercalate,
    Function.comp_def]

theorem Legible.param (h : (function params result span).Legible) {written : TypeExpr}
    (hmem : written ∈ params) : written.Legible := fun name hname =>
  h name (by simp [symbols, Symbol.mem_listed (List.mem_map_of_mem hmem) hname])

theorem Legible.behind (h : (function params result span).Legible) {written : TypeExpr}
    (hmem : written ∈ result) : written.Legible := fun name hname =>
  h name (by
    obtain rfl : result = some written := hmem
    simp [symbols, Symbol.after, hname])

theorem Legible.name {name : String} (h : (named name span).Legible) : IsName name :=
  h name List.mem_cons_self

theorem Legible.separable {written : TypeExpr} (h : written.Legible) :
    Separable [',', ' '] written.sexp.toList := by
  refine ⟨?_, fun rest _ => stops_of_head (by decide) (by decide) (by decide)⟩
  cases written with
  | named name span =>
      obtain ⟨c, more, hname, _⟩ := h.name.head
      have hchar := h.name.chars c (hname ▸ List.mem_cons_self)
      exact ⟨c, more, hname, not_isSeparator_of_isWordChar hchar⟩
  | function params result span =>
      rw [toList_sexp_function]
      exact ⟨'f', _, rfl, by decide, by decide⟩

def IsReadBack (written : TypeExpr) : Prop :=
  ReadsBack type? written.sexp.toList (written.relabel .placeless)

theorem named_readBack {name : String} (h : IsName name) : (named name span).IsReadBack := by
  intro fuel rest hfuel hrest
  obtain ⟨c, more, hname, _⟩ := h.head
  obtain ⟨fuel, rfl⟩ : ∃ less, fuel = less + 1 :=
    ⟨fuel - 1, by rw [sexp, hname, List.length_cons] at hfuel; omega⟩
  obtain ⟨htake, hdrop⟩ := takeWhile_run h.chars fun c hc => (hrest.head c hc).1
  rw [type?, sexp, htake, hdrop, if_neg h.ne_fn, String.ofList_toList]
  rfl

theorem type?_function (fuel : Nat) (text : List Char) :
    type? (fuel + 1) (['f', 'n'] ++ '(' :: text) = do
      let (params, rest) ← items? (type? fuel) fuel text
      let (result, rest) ← behind? arrow (type? fuel) rest
      return (function params result .nowhere, rest) := by
  have hword : ∀ c ∈ ['f', 'n'], isWordChar c := List.all_eq_true.mp (by decide)
  have hrest : ∀ c ∈ ('(' :: text).head?, ¬isWordChar c := by simp [isWordChar, wordEnds]
  obtain ⟨htake, hdrop⟩ := takeWhile_run hword hrest
  rw [type?, htake, hdrop, if_pos rfl, List.tail_cons]

theorem function_readBack (h : (function params result span).Legible)
    (hparams : ∀ param ∈ params, param.IsReadBack) (hresult : ∀ a ∈ result, a.IsReadBack) :
    (function params result span).IsReadBack := by
  intro fuel rest hfuel hrest
  rw [toList_sexp_function] at hfuel ⊢
  simp only [List.length_append, List.length_cons, List.length_nil] at hfuel
  obtain ⟨fuel, rfl⟩ : ∃ less, fuel = less + 1 := ⟨fuel - 1, by omega⟩
  have hitems : items? (type? fuel) fuel ([',', ' '].intercalate (params.map (·.sexp.toList)) ++
      ')' :: (Form.behind arrow result ++ rest)) =
        some (params.map (relabel .placeless), Form.behind arrow result ++ rest) :=
    items?_intercalate (by decide) (fun param hmem => (h.param hmem).separable) hparams (by omega)
  have hlength : (Form.behind arrow result).length ≤ fuel := by omega
  have hbehind := behind?_behind hresult hlength hrest hrest.no_arrow
  have htext : ['f', 'n'] ++ '(' :: ([',', ' '].intercalate (params.map (·.sexp.toList)) ++
      ')' :: Form.behind arrow result) ++ rest = ['f', 'n'] ++
      '(' :: ([',', ' '].intercalate (params.map (·.sexp.toList)) ++
        ')' :: (Form.behind arrow result ++ rest)) := by
    simp only [List.append_assoc, List.cons_append]
  rw [htext, type?_function, hitems]
  simp only [Option.bind_eq_bind, Option.bind_some, hbehind, Option.pure_def, relabel,
    relabelAll_eq_map, relabel?_eq_map]
  rfl

mutual

theorem readBack : (written : TypeExpr) → written.Legible → written.IsReadBack
  | .named _ _, h => named_readBack h.name
  | .function params none _, h =>
      function_readBack h (allReadBack params fun _ hmem => h.param hmem) (by simp)
  | .function params (some result) _, h =>
      function_readBack h (allReadBack params fun _ hmem => h.param hmem) fun a hmem => by
        obtain rfl := Option.some.inj hmem
        exact result.readBack (h.behind rfl)

theorem allReadBack : (written : List TypeExpr) → (∀ a ∈ written, a.Legible) →
    ∀ a ∈ written, a.IsReadBack
  | [], _ => by simp
  | first :: rest, h => by
      obtain ⟨hfirst, hrest⟩ := List.forall_mem_cons.mp h
      exact List.forall_mem_cons.mpr ⟨first.readBack hfirst, allReadBack rest hrest⟩

end

end TypeExpr

namespace Form

variable {word : String} {declared result : Option TypeExpr} {items : List Form}

theorem not_wordChar_behind {rest : List Char} (hrest : Stops rest) :
    ∀ c ∈ (behind [':'] declared ++ rest).head?, ¬isWordChar c := by
  cases declared with
  | none => exact fun c hc => (hrest.head c hc).1
  | some written =>
      intro c hc
      obtain rfl := Option.some.inj hc
      decide

theorem IsFormWord.head {text : List Char} (h : IsFormWord text) :
    ∃ c more, text = c :: more ∧ isWordChar c := by
  obtain ⟨c, more, rfl⟩ := List.exists_cons_of_ne_nil h.ne_nil
  exact ⟨c, more, rfl, h.chars c List.mem_cons_self⟩

theorem Legible.separable {form : Form} (h : form.Legible) : Separable [' '] form.text := by
  cases form with
  | quoted text =>
      exact ⟨⟨'"', _, rfl, by decide, by decide⟩, fun rest _ => stops_space (by decide)⟩
  | word text declared =>
      obtain ⟨c, more, hc, hchar⟩ := h.1.head
      refine ⟨⟨c, more ++ behind [':'] declared, by rw [Form.text, hc, List.cons_append],
        not_isSeparator_of_isWordChar hchar⟩, fun rest hrest => ?_⟩
      rw [Form.text, List.append_assoc]
      exact @stops_space_word text.toList _ h.1 (not_wordChar_behind hrest)
  | list items result =>
      exact ⟨⟨'(', _, rfl, by decide, by decide⟩, fun rest _ => stops_space (by decide)⟩

def IsReadBack (form : Form) : Prop := ReadsBack form? form.text form.placeless

theorem quoted_readBack {text : String} (h : '"' ∉ text.toList) : (quoted text).IsReadBack := by
  intro fuel rest hfuel _
  obtain ⟨fuel, rfl⟩ : ∃ less, fuel = less + 1 :=
    ⟨fuel - 1, by rw [Form.text, List.length_cons] at hfuel; omega⟩
  have hbody : ∀ c ∈ text.toList, (c != '"') = true :=
    fun c hc => bne_iff_ne.mpr fun heq => h (heq ▸ hc)
  have hquote : ∀ c ∈ ('"' :: rest).head?, ¬(c != '"') = true := by simp
  obtain ⟨htake, hdrop⟩ := takeWhile_run hbody hquote
  have htext : (quoted text).text ++ rest = '"' :: (text.toList ++ '"' :: rest) := by
    simp [Form.text]
  rw [htext, form?, List.head?_cons, if_pos rfl, List.tail_cons, htake, hdrop,
    String.ofList_toList]
  rfl

theorem word_readBack (h : (Form.word word declared).Legible) :
    (Form.word word declared).IsReadBack := by
  obtain ⟨hword, hdeclared⟩ := h
  intro fuel rest hfuel hrest
  obtain ⟨c, more, hc, hchar⟩ := hword.head
  simp only [Form.text, List.length_append] at hfuel
  obtain ⟨fuel, rfl⟩ : ∃ less, fuel = less + 1 :=
    ⟨fuel - 1, by rw [hc, List.length_cons] at hfuel; omega⟩
  have hpositive : 0 < word.toList.length := List.length_pos_iff.mpr hword.ne_nil
  obtain ⟨htake, hdrop⟩ :=
    takeWhile_run hword.chars (@not_wordChar_behind declared rest hrest)
  have hcolon : ¬[':'] <+: rest := by
    rintro ⟨more, rfl⟩
    exact (hrest.head ':' rfl).2 rfl
  have hlength : (behind [':'] declared).length ≤ fuel := by omega
  have hbehind :=
    behind?_behind (fun a hmem => a.readBack (hdeclared a hmem)) hlength hrest hcolon
  have hquote : (word.toList ++ (behind [':'] declared ++ rest)).head? ≠ some '"' := by
    rw [hc, List.cons_append, List.head?_cons]
    rintro ⟨⟩
    exact absurd hchar (by decide)
  have hparen : (word.toList ++ (behind [':'] declared ++ rest)).head? ≠ some '(' := by
    rw [hc, List.cons_append, List.head?_cons]
    rintro ⟨⟩
    exact absurd hchar (by decide)
  rw [Form.text, List.append_assoc, form?, if_neg hquote, if_neg hparen, htake, hdrop, hbehind,
    String.ofList_toList]
  rfl

theorem list_readBack (h : (list items result).Legible)
    (hitems : ∀ item ∈ items, item.IsReadBack) : (list items result).IsReadBack := by
  obtain ⟨hlegible, hresult⟩ := h
  rw [allLegible_iff] at hlegible
  intro fuel rest hfuel hrest
  simp only [Form.text, texts_eq_map, List.length_append, List.length_cons] at hfuel
  obtain ⟨fuel, rfl⟩ : ∃ less, fuel = less + 1 := ⟨fuel - 1, by omega⟩
  have hread : items? (form? fuel) fuel ([' '].intercalate (items.map text) ++
      ')' :: (behind arrow result ++ rest)) =
        some (items.map placeless, behind arrow result ++ rest) :=
    items?_intercalate (by decide) (fun item hmem => (hlegible item hmem).separable) hitems
      (by omega)
  have hlength : (behind arrow result).length ≤ fuel := by omega
  have hbehind :=
    behind?_behind (fun a hmem => a.readBack (hresult a hmem)) hlength hrest hrest.no_arrow
  have htext : (list items result).text ++ rest = '(' ::
      ([' '].intercalate (items.map text) ++ ')' :: (behind arrow result ++ rest)) := by
    simp only [Form.text, texts_eq_map, List.append_assoc, List.cons_append]
  rw [htext, form?, List.head?_cons, if_neg (by decide), if_pos rfl, List.tail_cons, hread]
  simp only [Option.bind_eq_bind, Option.bind_some, hbehind, Option.pure_def, placeless,
    allPlaceless_eq_map]

mutual

theorem readBack : (form : Form) → form.Legible → form.IsReadBack
  | .quoted _, h => quoted_readBack h
  | .word .., h => word_readBack h
  | .list items _, h => list_readBack h (allReadBack items h.1)

theorem allReadBack : (forms : List Form) → AllLegible forms → ∀ form ∈ forms, form.IsReadBack
  | [], _ => by simp
  | first :: rest, h =>
      List.forall_mem_cons.mpr ⟨first.readBack h.1, allReadBack rest h.2⟩

end

theorem lines?_texts {forms : List Form} (h : ∀ form ∈ forms, form.Legible) {fuel : Nat}
    (hfuel : (forms.flatMap fun form => form.text ++ ['\n']).length < fuel) :
    lines? fuel (forms.flatMap fun form => form.text ++ ['\n']) = some (forms.map placeless) := by
  induction forms generalizing fuel with
  | nil =>
      obtain ⟨fuel, rfl⟩ : ∃ less, fuel = less + 1 := ⟨fuel - 1, by omega⟩
      rfl
  | cons form rest ih =>
      obtain ⟨hform, hrest⟩ := List.forall_mem_cons.mp h
      simp only [List.flatMap_cons, List.length_append, List.length_cons, List.length_nil] at hfuel
      obtain ⟨fuel, rfl⟩ : ∃ less, fuel = less + 1 := ⟨fuel - 1, by omega⟩
      have hread := form.readBack hform fuel
        ('\n' :: rest.flatMap fun form => form.text ++ ['\n']) (by omega) (stops_line _)
      have hmore := @ih hrest fuel (by omega)
      have htext : (form :: rest).flatMap (fun form => form.text ++ ['\n']) =
          form.text ++ '\n' :: rest.flatMap fun form => form.text ++ ['\n'] := by
        simp
      rw [htext, lines?, if_neg (by simp), hread]
      simp only [Option.bind_eq_bind, Option.bind_some, List.head?_cons, guard, if_true,
        List.tail_cons, hmore, Option.pure_def, List.map_cons]

end Form

end Scriptlet
