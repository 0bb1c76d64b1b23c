import Scriptlet.Proofs.Dump
import Scriptlet.Proofs.Parsing.Alone
import Scriptlet.Proofs.Scanning.Cut
import Scriptlet.Proofs.Typing.Relabeled

/-! Types read back from their texts. The text of a type is laid out like the annotation that writes
it in full, with the result of every function; so scanning and parsing it leads to that annotation,
and the annotation means the type. -/

namespace Scriptlet

open Lexeme (isWordPart twoMarks?)

namespace Token

/-- The text is laid out, wherever it begins, as tokens that stand for the symbols. -/
def LaidOut (text : List Char) (symbols : List Symbol) : Prop :=
  ∀ place, ∃ tokens, Layout place text tokens ∧ tokens.map Token.symbol = symbols

section LaidOut

variable {gap rest : List Char} {symbols : List Symbol}

theorem laidOut_end : LaidOut [] [.mark .endOfInput] := fun _ => ⟨_, .finish .nil, rfl⟩

theorem LaidOut.lexeme {lexeme : Lexeme} (h : LaidOut rest symbols) (hgap : Gap false gap)
    (hvalid : lexeme.Valid) (hrest : ∀ c ∈ rest.head?, ¬lexeme.goesOn c) :
    LaidOut (gap ++ (lexeme.text ++ rest)) ((lexeme.toToken .start).symbol :: symbols) := by
  intro place
  obtain ⟨tokens, hlayout, rfl⟩ := h ((place.after gap).after lexeme.text)
  exact ⟨_, .token hgap (hvalid.longest hrest) hlayout, rfl⟩

theorem LaidOut.mark (h : LaidOut rest symbols) (kind : Kind) (hgap : Gap false gap)
    (hkind : kind ∈ [Kind.leftParen, .rightParen, .comma, .arrow]) :
    LaidOut (gap ++ (kind.spelling.toList ++ rest)) (.mark kind :: symbols) := by
  have hall : ∀ kind ∈ [Kind.leftParen, .rightParen, .comma, .arrow], kind ∈ Kind.marks ∧
      ((Lexeme.fixed kind).toToken .start).symbol = .mark kind := by decide
  obtain ⟨hmark, hsymbol⟩ := hall kind hkind
  rw [← hsymbol]
  refine h.lexeme hgap (.mark hmark) fun c _ => ?_
  simp only [List.mem_cons, List.not_mem_nil, or_false] at hkind
  rcases hkind with rfl | rfl | rfl | rfl <;> simp [Lexeme.goesOn, Lexeme.fixed, Kind.spelling,
    Kind.marks, twoMarks?]

theorem LaidOut.fnWord (h : LaidOut ('(' :: rest) symbols) (hgap : Gap false gap) :
    LaidOut (gap ++ ('f' :: 'n' :: '(' :: rest)) (.mark .fnWord :: symbols) := by
  have hkeyword : Kind.fnWord ∈ Kind.keywords := by decide
  refine h.lexeme hgap (.keyword hkeyword) fun c hc => ?_
  obtain rfl := Option.some.inj hc
  rw [Lexeme.fixed, Lexeme.goesOn_word (.inr hkeyword)]
  decide

theorem LaidOut.name {name : String} (h : LaidOut rest symbols) (hgap : Gap false gap)
    (hname : IsName name) (hrest : ∀ c ∈ rest.head?, ¬isWordPart c) :
    LaidOut (gap ++ (name.toList ++ rest)) (.name name :: symbols) := by
  have hvalid : (Lexeme.identifier name.toList).Valid :=
    .name hname.word fun kind hkind heq => hname.plain kind hkind (String.toList_inj.mp heq)
  have hlexeme := h.lexeme hgap hvalid fun c hc => by
    simpa [Lexeme.identifier, Lexeme.goesOn_word (.inl _)] using hrest c hc
  simpa [Lexeme.identifier, Lexeme.toToken, Token.symbol] using hlexeme

end LaidOut

end Token

theorem Symbol.separated_cons (first : List Symbol) (more : List (List Symbol)) :
    separated (first :: more) = first ++ more.flatMap (.mark .comma :: ·) := by
  induction more generalizing first with
  | nil => simp [separated]
  | cons next rest ih => simp [separated, ih]

namespace Ty

mutual

/-- All names in the type are words, and none of them is the name of another type. -/
def Legible : Ty → Prop
  | .function params result => AllLegible params ∧ result.Legible
  | ty => IsName ty.text ∧ ofName ty.text = ty

def AllLegible : List Ty → Prop
  | [] => True
  | ty :: rest => ty.Legible ∧ AllLegible rest

end

@[simp] theorem allLegible_iff {types : List Ty} :
    AllLegible types ↔ ∀ ty ∈ types, ty.Legible := by
  induction types with
  | nil => simp [AllLegible]
  | cons ty rest ih => simp [AllLegible, ih]

mutual

def written : Ty → TypeExpr
  | .function params result => .function (allWritten params) (some result.written) .nowhere
  | ty => .named ty.text .nowhere

def allWritten : List Ty → List TypeExpr
  | [] => []
  | ty :: rest => ty.written :: allWritten rest

end

@[simp] theorem allWritten_eq_map (types : List Ty) : allWritten types = types.map written := by
  induction types with
  | nil => rfl
  | cons ty rest ih => simp [allWritten, ih]

section Legible

variable {name : String} {params : List Ty} {result ty : Ty}

theorem legible_function_iff : (function params result).Legible ↔
    (∀ ty ∈ params, ty.Legible) ∧ result.Legible := by
  rw [Legible, allLegible_iff]

theorem text_ofName (name : String) : (ofName name).text = name := by
  unfold ofName
  split <;> simp [text]

theorem ofName_ne_function : ofName name ≠ function params result := by
  unfold ofName
  split <;> simp

theorem legible_ofName (h : IsName name) : (ofName name).Legible := by
  have hnamed : IsName (ofName name).text ∧ ofName (ofName name).text = ofName name := by
    rw [text_ofName]
    exact ⟨h, rfl⟩
  cases hty : ofName name with
  | function => exact absurd hty ofName_ne_function
  | _ => rwa [hty] at hnamed

end Legible

section Text

variable {params : List Ty} {result ty : Ty} {gap rest : List Char} {symbols : List Symbol}

theorem toList_text_function (params : List Ty) (result : Ty) :
    (function params result).text.toList = ['f', 'n', '('] ++
      ([',', ' '].intercalate (params.map (·.text.toList)) ++
        ([')', ' ', '-', '>', ' '] ++ result.text.toList)) := by
  simp [text, texts_eq_map, String.toList_intercalate, Function.comp_def]

/-- The text is laid out as the annotation, in front of any text that is laid out and does not go on
with a word. -/
def IsLaidOut (ty : Ty) : Prop :=
  ∀ gap rest symbols, Gap false gap → (∀ c ∈ rest.head?, ¬isWordPart c) →
    Token.LaidOut rest symbols →
      Token.LaidOut (gap ++ (ty.text.toList ++ rest)) (ty.written.symbols ++ symbols)

theorem isLaidOut_named (h : IsName ty.text) (hty : ty.written = .named ty.text .nowhere) :
    ty.IsLaidOut := by
  intro gap rest symbols hgap hnext hrest
  rw [hty]
  exact hrest.name hgap h hnext

theorem laidOut_more {types : List Ty} (h : ∀ ty ∈ types, ty.IsLaidOut)
    (hnext : ∀ c ∈ rest.head?, ¬isWordPart c) (hrest : Token.LaidOut rest symbols) :
    Token.LaidOut (types.flatMap (fun ty => [',', ' '] ++ ty.text.toList) ++ rest)
        (types.flatMap (fun ty => .mark .comma :: ty.written.symbols) ++ symbols) ∧
      ∀ c ∈ (types.flatMap (fun ty => [',', ' '] ++ ty.text.toList) ++ rest).head?,
        ¬isWordPart c := by
  induction types with
  | nil => exact ⟨hrest, hnext⟩
  | cons ty more ih =>
      obtain ⟨hty, hmore⟩ := List.forall_mem_cons.mp h
      obtain ⟨hothers, hstop⟩ := ih hmore
      have htype := hty [' '] _ _ (.blank (by decide) .nil) hstop hothers
      have hcomma := htype.mark .comma .nil (by decide)
      refine ⟨?_, fun c hc => ?_⟩
      · simpa [Kind.spelling] using hcomma
      · obtain rfl := Option.some.inj hc
        decide

theorem laidOut_listed {types : List Ty} (h : ∀ ty ∈ types, ty.IsLaidOut)
    (hrest : Token.LaidOut rest symbols) :
    Token.LaidOut ('(' :: ([',', ' '].intercalate (types.map (·.text.toList)) ++ ')' :: rest))
      (Symbol.listed (types.map (·.written.symbols)) ++ symbols) := by
  have hclosing : Token.LaidOut ([] ++ ([')'] ++ rest)) (.mark .rightParen :: symbols) :=
    hrest.mark .rightParen .nil (by decide)
  have hitems : Token.LaidOut ([',', ' '].intercalate (types.map (·.text.toList)) ++ ')' :: rest)
      (Symbol.separated (types.map (·.written.symbols)) ++ .mark .rightParen :: symbols) := by
    cases types with
    | nil => exact hclosing
    | cons first more =>
        obtain ⟨hfirst, hmore⟩ := List.forall_mem_cons.mp h
        obtain ⟨hothers, hstop⟩ := laidOut_more hmore (by simp; decide) hclosing
        have hall := hfirst [] _ _ .nil hstop hothers
        simpa [Form.intercalate_cons, Symbol.separated_cons, List.flatMap_map] using hall
  simpa [Symbol.listed, Kind.spelling] using hitems.mark .leftParen .nil (by decide)

theorem isLaidOut_function (hparams : ∀ ty ∈ params, ty.IsLaidOut) (hresult : result.IsLaidOut) :
    (function params result).IsLaidOut := by
  intro gap rest symbols hgap hnext hrest
  have hspace : Gap false [' '] := .blank (by decide) .nil
  have harrow := (hresult [' '] _ _ hspace hnext hrest).mark .arrow hspace (by decide)
  have hword := (laidOut_listed hparams harrow).fnWord hgap
  simpa [toList_text_function, written, TypeExpr.symbols, Symbol.after, Function.comp_def,
    Kind.spelling] using hword

mutual

theorem isLaidOut : (ty : Ty) → ty.Legible → ty.IsLaidOut
  | .function params result, h =>
      isLaidOut_function (allLaidOut params (allLegible_iff.mp h.1)) (result.isLaidOut h.2)
  | .int, h | .float, h | .string, h | .bool, h | .nothing, h | .user _, h =>
      isLaidOut_named h.1 rfl

theorem allLaidOut : (types : List Ty) → (∀ ty ∈ types, ty.Legible) →
    ∀ ty ∈ types, ty.IsLaidOut
  | [], _ => by simp
  | ty :: rest, h =>
      have h := List.forall_mem_cons.mp h
      List.forall_mem_cons.mpr ⟨ty.isLaidOut h.1, allLaidOut rest h.2⟩

end

mutual

theorem ty_written : (ty : Ty) → ty.Legible → ty.written.ty = ty
  | .function params result, h => by
      rw [written, TypeExpr.ty, result.ty_written h.2, allWritten_eq_map, TypeExpr.tys_eq_map,
        List.map_map, all_ty_written params (allLegible_iff.mp h.1)]
  | .int, h | .float, h | .string, h | .bool, h | .nothing, h | .user _, h => h.2

theorem all_ty_written : (types : List Ty) → (∀ ty ∈ types, ty.Legible) →
    types.map (TypeExpr.ty ∘ written) = types
  | [], _ => rfl
  | ty :: rest, h => by
      obtain ⟨hty, hrest⟩ := List.forall_mem_cons.mp h
      rw [List.map_cons, Function.comp_apply, ty.ty_written hty, all_ty_written rest hrest]

end

end Text

/-- The type that a text means if all of it is an annotation. -/
def ofText? (text : String) : Option Ty :=
  match Token.scan text with
  | .error _ => none
  | .ok tokens =>
      match Parse.typeExpr (parseFuel tokens) (.ofTokens tokens 0) with
      | .error _ _ => none
      | .ok written after => if after.rest.isEmpty then some written.ty else none

theorem ofText?_text {ty : Ty} (h : ty.Legible) : ofText? ty.text = some ty := by
  obtain ⟨tokens, hlayout, hsymbols⟩ :=
    ty.isLaidOut h [] [] _ .nil (by simp) Token.laidOut_end .start
  rw [List.append_nil, List.nil_append] at hlayout
  obtain ⟨finish, htokens, hfinish, hinside⟩ := hlayout.inside
  have hwritten : tokens.dropLast.map Token.symbol = ty.written.symbols := by
    rw [htokens, List.map_append] at hsymbols
    exact (List.append_inj' hsymbols rfl).1
  -- The annotation that is parsed differs from the one that is written in places only.
  have hstart := Cursor.ofTokens_closed hinside hfinish 0
  rw [← htokens] at hstart
  have hahead : Ahead (.ofTokens tokens 0) (ty.written.symbols ++ []) := by
    rw [hstart, List.append_nil]
    exact ⟨hwritten, hfinish⟩
  obtain ⟨read, after, hspelled, hafter, hbare⟩ := ty.written.readable _ _ hahead (by decide)
  have hfuel : 8 * (Cursor.ofTokens tokens 0).left ≤ parseFuel tokens := by
    rw [hstart, Cursor.left, parseFuel, List.length_dropLast]
    omega
  have hparse : Parse.typeExpr (parseFuel tokens) (.ofTokens tokens 0) = .ok read after :=
    Parse.typeExpr_gives hspelled _ hfuel
  have hrest : after.rest.isEmpty := by
    rw [List.isEmpty_iff]
    exact List.map_eq_nil_iff.mp hafter.symbols
  have hty : read.ty = ty := by
    rw [← TypeExpr.ty_relabel read, hbare, TypeExpr.ty_relabel, ty.ty_written h]
  rw [ofText?, Token.scan, Token.scanFrom_of_layout hlayout]
  simp only [hparse, if_pos hrest, hty]

theorem text_inj {ty other : Ty} (h : ty.Legible) (h' : other.Legible) :
    ty.text = other.text ↔ ty = other := by
  refine ⟨fun hsame => Option.some.inj ?_, fun heq => heq ▸ rfl⟩
  rw [← ofText?_text h, hsame, ofText?_text h']

end Ty

end Scriptlet
