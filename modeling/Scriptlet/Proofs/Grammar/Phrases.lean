import Scriptlet.Proofs.Grammar.Extent

/-! The phrases of a program and the pieces of which a phrase is made up: symbols of its own and
smaller phrases. Pieces cover tokens if each symbol is one of them and each smaller phrase has a
run of them, over which its span runs. -/

namespace Scriptlet

/-- Whatever has a span of its own. -/
inductive Phrase where
  | stmt (stmt : Stmt)
  | block (block : Block)
  | function (decl : FnDecl)
  | param (param : Param)
  | written (type : TypeExpr)
  | expr (expr : Expr)

inductive Piece where
  | symbol (symbol : Symbol)
  | part (phrase : Phrase)

namespace Piece

def sign (kind : Kind) : Piece := .symbol (.mark kind)

def part? : Piece → Option Phrase
  | .symbol _ => none
  | .part phrase => some phrase

def parts (pieces : List Piece) : List Phrase := pieces.filterMap part?

def separated : List Phrase → List Piece
  | [] => []
  | [phrase] => [.part phrase]
  | phrase :: next :: rest => .part phrase :: sign .comma :: separated (next :: rest)

def listed (phrases : List Phrase) : List Piece :=
  sign .leftParen :: (separated phrases ++ [sign .rightParen])

def behind (kind : Kind) : Option Phrase → List Piece
  | none => []
  | some phrase => [sign kind, .part phrase]

def statements (stmts : List Stmt) : List Piece := stmts.map fun stmt => .part (.stmt stmt)

def braced (stmts : List Stmt) : List Piece :=
  sign .leftBrace :: (statements stmts ++ [sign .rightBrace])

section Parts

@[simp] theorem parts_nil : parts [] = [] := rfl

@[simp] theorem parts_symbol (own : Symbol) (pieces : List Piece) :
    parts (.symbol own :: pieces) = parts pieces := rfl

@[simp] theorem parts_sign (kind : Kind) (pieces : List Piece) :
    parts (sign kind :: pieces) = parts pieces := rfl

@[simp] theorem parts_part (phrase : Phrase) (pieces : List Piece) :
    parts (.part phrase :: pieces) = phrase :: parts pieces := rfl

@[simp] theorem parts_append (first second : List Piece) :
    parts (first ++ second) = parts first ++ parts second := List.filterMap_append

@[simp] theorem parts_separated (phrases : List Phrase) : parts (separated phrases) = phrases := by
  induction phrases using separated.induct with
  | case1 => rfl
  | case2 phrase => rfl
  | case3 phrase next rest ih => simp [separated, ih]

@[simp] theorem parts_listed (phrases : List Phrase) : parts (listed phrases) = phrases := by
  simp [listed]

@[simp] theorem parts_behind (kind : Kind) (value : Option Phrase) :
    parts (behind kind value) = value.toList := by
  cases value <;> rfl

@[simp] theorem parts_statements (stmts : List Stmt) :
    parts (statements stmts) = stmts.map .stmt := by
  induction stmts with
  | nil => rfl
  | cons stmt rest ih => exact congrArg (Phrase.stmt stmt :: ·) ih

@[simp] theorem parts_braced (stmts : List Stmt) : parts (braced stmts) = stmts.map .stmt := by
  simp [braced]

end Parts

end Piece

open Piece (sign listed behind braced)

def TypeExpr.pieces : TypeExpr → List Piece
  | .named name _ => [.symbol (.name name)]
  | .function params result _ =>
      sign .fnWord :: (listed (params.map .written) ++ behind .arrow (result.map .written))

def Param.pieces (param : Param) : List Piece :=
  .symbol (.name param.name) :: behind .colon (param.declared.map .written)

def Expr.pieces : Expr → List Piece
  | .literal value _ => [.symbol value.symbol]
  | .variable name _ => [.symbol (.name name)]
  | .assign name value _ => [.symbol (.name name), sign .equal, .part (.expr value)]
  | .group inner _ => [sign .leftParen, .part (.expr inner), sign .rightParen]
  | .unary op operand _ => [sign op.kind, .part (.expr operand)]
  | .binary op left right _ => [.part (.expr left), sign op.kind, .part (.expr right)]
  | .call callee args _ => .part (.expr callee) :: listed (args.map .expr)
  | .function decl _ => [.part (.function decl)]

/-- The braces of a body belong to the function itself. -/
def FnDecl.pieces (decl : FnDecl) : List Piece :=
  sign .fnWord :: ((if decl.anonymous then [] else [.symbol (.name decl.name)]) ++
    (listed (decl.params.map .param) ++
      (behind .arrow (decl.result.map .written) ++ braced decl.body)))

def Stmt.pieces : Stmt → List Piece
  | .expression expr => [.part (.expr expr)]
  | .binding name declared init _ =>
      sign .letWord :: .symbol (.name name) ::
        (behind .colon (declared.map .written) ++ behind .equal (init.map .expr))
  | .block inner => [.part (.block inner)]
  | .conditional condition thenBlock otherwise _ =>
      sign .ifWord :: .part (.expr condition) :: .part (.block thenBlock) ::
        behind .elseWord (otherwise.map .stmt)
  | .loop condition body _ => [sign .whileWord, .part (.expr condition), .part (.block body)]
  | .function decl => [.part (.function decl)]
  | .ret value _ => sign .returnWord :: (value.map fun value => .part (.expr value)).toList

namespace Phrase

def span : Phrase → Span
  | .stmt s => s.span
  | .block inner => inner.span
  | .function decl => decl.mark.span
  | .param p => p.span
  | .written type => type.span
  | .expr e => e.span

def symbols : Phrase → List Symbol
  | .stmt s => s.symbols
  | .block inner => inner.symbols
  | .function decl => decl.symbols
  | .param p => p.symbols
  | .written type => type.symbols
  | .expr e => e.symbols

def pieces : Phrase → List Piece
  | .stmt s => s.pieces
  | .block inner => braced inner.statements
  | .function decl => decl.pieces
  | .param p => p.pieces
  | .written type => type.pieces
  | .expr e => e.pieces

def parts (phrase : Phrase) : List Phrase := Piece.parts phrase.pieces

theorem pieces_ne_nil (phrase : Phrase) : phrase.pieces ≠ [] := by
  cases phrase with
  | stmt stmt => cases stmt <;> simp [pieces, Stmt.pieces]
  | block block => simp [pieces, braced]
  | function decl => simp [pieces, FnDecl.pieces]
  | param param => simp [pieces, Param.pieces]
  | written type => cases type <;> simp [pieces, TypeExpr.pieces]
  | expr expr => cases expr <;> simp [pieces, Expr.pieces]

end Phrase

namespace Piece

def symbols : Piece → List Symbol
  | .symbol own => [own]
  | .part phrase => phrase.symbols

section Symbols

variable {α : Type} (phrase : α → Phrase)

@[simp] theorem symbols_symbol (own : Symbol) : (symbol own).symbols = [own] := rfl

@[simp] theorem symbols_sign (kind : Kind) : (sign kind).symbols = [.mark kind] := rfl

@[simp] theorem symbols_part (phrase : Phrase) : (part phrase).symbols = phrase.symbols := rfl

@[simp] theorem symbols_separated (items : List α) :
    (separated (items.map phrase)).flatMap symbols =
      Symbol.separated (items.map fun item => (phrase item).symbols) := by
  induction items with
  | nil => rfl
  | cons item rest ih =>
      cases rest with
      | nil => simp [separated, Symbol.separated]
      | cons next rest =>
          simp only [List.map_cons, separated, Symbol.separated] at ih ⊢
          simp [ih]

@[simp] theorem symbols_listed (items : List α) :
    (listed (items.map phrase)).flatMap symbols =
      Symbol.listed (items.map fun item => (phrase item).symbols) := by
  simp [listed, Symbol.listed]

@[simp] theorem symbols_behind (kind : Kind) (value : Option α) :
    (behind kind (value.map phrase)).flatMap symbols =
      Symbol.after kind (value.map fun item => (phrase item).symbols) := by
  cases value <;> simp [behind, Symbol.after]

@[simp] theorem symbols_statements (stmts : List Stmt) :
    (statements stmts).flatMap symbols = Stmt.allSymbols stmts := by
  induction stmts with
  | nil => rfl
  | cons stmt rest ih =>
      simp only [statements] at ih
      simp [statements, Stmt.allSymbols, Phrase.symbols, ih]

@[simp] theorem symbols_braced (stmts : List Stmt) :
    (braced stmts).flatMap symbols = Symbol.braced (Stmt.allSymbols stmts) := by
  simp [braced, Symbol.braced]

end Symbols

end Piece

section Symbols

theorem TypeExpr.symbols_pieces (type : TypeExpr) :
    type.pieces.flatMap Piece.symbols = type.symbols := by
  cases type <;> simp [pieces, symbols, Phrase.symbols]

theorem Param.symbols_pieces (param : Param) :
    param.pieces.flatMap Piece.symbols = param.symbols := by
  simp [pieces, symbols, Phrase.symbols]

theorem Expr.symbols_pieces (expr : Expr) :
    expr.pieces.flatMap Piece.symbols = expr.symbols := by
  cases expr <;> simp [pieces, symbols, Phrase.symbols]

theorem FnDecl.symbols_pieces (decl : FnDecl) :
    decl.pieces.flatMap Piece.symbols = decl.symbols := by
  rw [symbols_eq]
  cases hname : decl.anonymous <;> simp [pieces, hname, Phrase.symbols]

theorem Stmt.symbols_pieces (stmt : Stmt) :
    stmt.pieces.flatMap Piece.symbols = stmt.symbols := by
  cases stmt with
  | ret value span => cases value <;> simp [pieces, symbols, Phrase.symbols]
  | _ => simp [pieces, symbols, Phrase.symbols]

theorem Phrase.symbols_pieces : (phrase : Phrase) →
    phrase.pieces.flatMap Piece.symbols = phrase.symbols
  | .stmt s => s.symbols_pieces
  | .block inner => by rw [pieces, Piece.symbols_braced, symbols, Block.symbols_eq]
  | .function decl => decl.symbols_pieces
  | .param p => p.symbols_pieces
  | .written type => type.symbols_pieces
  | .expr e => e.symbols_pieces

end Symbols

/-- From the first of the tokens through the last one, with the line of the first one. -/
def Span.RunsOver (span : Span) (tokens : List Token) : Prop :=
  ∃ first last, tokens.head? = some first ∧ tokens.getLast? = some last ∧
    span.offset = first.span.offset ∧ span.stop = last.span.stop ∧ span.line = first.span.line

def Span.Inside (inner outer : Span) : Prop :=
  outer.offset ≤ inner.offset ∧ inner.stop ≤ outer.stop

/-- The pieces are made up of just these tokens, and the smaller phrases among them likewise, all
the way down. -/
inductive Covered : List Piece → List Token → Prop
  | nil : Covered [] []
  | symbol {token : Token} {pieces : List Piece} {tokens : List Token}
      (hrest : Covered pieces tokens) :
      Covered (.symbol token.symbol :: pieces) (token :: tokens)
  | part {phrase : Phrase} {pieces : List Piece} {own tokens : List Token}
      (hown : Covered phrase.pieces own) (hspan : phrase.span.RunsOver own)
      (hrest : Covered pieces tokens) :
      Covered (.part phrase :: pieces) (own ++ tokens)

namespace Span.RunsOver

variable {span inner outer : Span} {tokens own : List Token}

theorem mem (h : span.RunsOver tokens) :
    ∃ first ∈ tokens, ∃ last ∈ tokens,
      span.offset = first.span.offset ∧ span.stop = last.span.stop := by
  obtain ⟨first, last, hfirst, hlast, hoffset, hstop, _⟩ := h
  exact ⟨first, List.mem_of_mem_head? hfirst, last, List.mem_of_getLast? hlast, hoffset, hstop⟩

theorem token_inside (h : span.RunsOver tokens)
    (hordered : tokens.Pairwise fun first second => first.span.stop ≤ second.span.offset)
    {token : Token} (hmem : token ∈ tokens) : token.span.Inside span := by
  obtain ⟨first, last, hfirst, hlast, hoffset, hstop, _⟩ := h
  constructor
  · obtain ⟨rest, rfl⟩ := List.head?_eq_some_iff.mp hfirst
    rw [hoffset]
    rcases List.mem_cons.mp hmem with rfl | hrest
    · exact Nat.le_refl _
    · exact Nat.le_trans (Nat.le_add_right _ _) (List.rel_of_pairwise_cons hordered hrest)
  · obtain ⟨others, rfl⟩ := List.getLast?_eq_some_iff.mp hlast
    rw [hstop]
    rcases List.mem_append.mp hmem with hothers | hsame
    · have hle := (List.pairwise_append.mp hordered).2.2 token hothers last (by simp)
      exact Nat.le_trans hle (Nat.le_add_right _ _)
    · exact Nat.le_of_eq (by rw [List.mem_singleton.mp hsame])

theorem inside (h : inner.RunsOver own) (houter : outer.RunsOver tokens)
    (hordered : tokens.Pairwise fun first second => first.span.stop ≤ second.span.offset)
    (hsubset : own ⊆ tokens) : inner.Inside outer := by
  obtain ⟨first, hfirst, last, hlast, hoffset, hstop⟩ := h.mem
  have hbegin := houter.token_inside hordered (hsubset hfirst)
  have hend := houter.token_inside hordered (hsubset hlast)
  exact ⟨hoffset ▸ hbegin.1, hstop ▸ hend.2⟩

end Span.RunsOver

namespace Covered

variable {pieces first second : List Piece} {tokens tokens' : List Token} {phrase : Phrase}

theorem of_symbols (tokens : List Token) :
    Covered ((tokens.map Token.symbol).map .symbol) tokens := by
  induction tokens with
  | nil => exact .nil
  | cons token rest ih => exact .symbol ih

theorem append (h : Covered first tokens) (hsecond : Covered second tokens') :
    Covered (first ++ second) (tokens ++ tokens') := by
  induction h with
  | nil => exact hsecond
  | symbol _ ih => exact .symbol ih
  | part hown hspan _ _ ih =>
      rw [List.cons_append, List.append_assoc]
      exact .part hown hspan ih

theorem ne_nil (h : Covered pieces tokens) (hne : pieces ≠ []) : tokens ≠ [] := by
  induction h with
  | nil => exact absurd rfl hne
  | symbol => simp
  | @part phrase _ _ _ _ _ _ ih _ => simp [ih phrase.pieces_ne_nil]

theorem symbols (h : Covered pieces tokens) :
    tokens.map Token.symbol = pieces.flatMap Piece.symbols := by
  induction h with
  | nil => rfl
  | symbol _ ih => simp [ih]
  | @part phrase _ _ _ _ _ _ ihown ih => simp [ihown, ih, phrase.symbols_pieces]

/-- Each of the phrases has a run of tokens to itself. -/
theorem exists_own (h : Covered pieces tokens) (hpart : phrase ∈ Piece.parts pieces) :
    ∃ front own back, tokens = front ++ (own ++ back) ∧ Covered phrase.pieces own ∧
      phrase.span.RunsOver own := by
  induction h with
  | nil => cases hpart
  | @symbol token _ _ _ ih =>
      obtain ⟨front, own, back, rfl, hown, hspan⟩ := ih hpart
      exact ⟨token :: front, own, back, rfl, hown, hspan⟩
  | @part other _ own _ hown hspan _ _ ih =>
      rcases List.mem_cons.mp hpart with rfl | hpart
      · exact ⟨[], own, _, rfl, hown, hspan⟩
      · obtain ⟨front, own', back, rfl, hown, hspan⟩ := ih hpart
        exact ⟨own ++ front, own', back, by simp, hown, hspan⟩

theorem apart (h : Covered pieces tokens)
    (hordered : tokens.Pairwise fun first second => first.span.stop ≤ second.span.offset) :
    (Piece.parts pieces).Pairwise fun first second => first.span.stop ≤ second.span.offset := by
  induction h with
  | nil => exact .nil
  | symbol _ ih => exact ih (List.pairwise_cons.mp hordered).2
  | part _ hspan hrest _ ih =>
      obtain ⟨_, hordered, hbetween⟩ := List.pairwise_append.mp hordered
      refine List.pairwise_cons.mpr ⟨fun later hlater => ?_, ih hordered⟩
      obtain ⟨front, own', back, rfl, _, hlaterSpan⟩ := hrest.exists_own hlater
      obtain ⟨_, _, last, hlast, _, hstop⟩ := hspan.mem
      obtain ⟨first, hfirst, _, _, hoffset, _⟩ := hlaterSpan.mem
      rw [hstop, hoffset]
      exact hbetween last hlast first (by simp [hfirst])

end Covered

end Scriptlet
