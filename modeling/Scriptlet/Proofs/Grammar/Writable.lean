import Scriptlet.Proofs.Grammar.Rules

/-! Every tree that follows the rules of the grammar can be written out with tokens. -/

namespace Scriptlet

/-- The symbol is that of some token inside a list. -/
def Symbol.Writable (symbol : Symbol) : Prop :=
  ∃ token : Token, token.kind ≠ .endOfInput ∧ token.symbol = symbol

namespace Symbol

theorem mark_writable {kind : Kind}
    (h : kind ∉ [Kind.identifier, .number, .string, .endOfInput]) : (mark kind).Writable := by
  refine ⟨⟨kind, "", none, ⟨0, 0, 1⟩⟩, fun hend : kind = .endOfInput => h (by simp [hend]), ?_⟩
  cases kind <;> first | rfl | exact absurd h (by decide)

theorem name_writable (text : String) : (name text).Writable :=
  ⟨⟨.identifier, text, none, ⟨0, 0, 1⟩⟩, nofun, rfl⟩

theorem text_writable (value : String) : (text value).Writable :=
  ⟨⟨.string, "", some (.text value), ⟨0, 0, 1⟩⟩, nofun, rfl⟩

theorem number_writable {value : Literal} (h : ∃ payload, Literal.number payload = value) :
    (number value).Writable := by
  obtain ⟨payload, rfl⟩ := h
  exact ⟨⟨.number, "", some (.number payload), ⟨0, 0, 1⟩⟩, nofun, rfl⟩

def AllWritable (symbols : List Symbol) : Prop := ∀ symbol ∈ symbols, symbol.Writable

section Pieces

variable {symbols first second : List Symbol} {symbol : Symbol} {pieces : List (List Symbol)}

@[simp] theorem allWritable_nil : AllWritable [] := by simp [AllWritable]

@[simp] theorem allWritable_cons :
    AllWritable (symbol :: symbols) ↔ symbol.Writable ∧ AllWritable symbols := by
  simp [AllWritable]

@[simp] theorem allWritable_append :
    AllWritable (first ++ second) ↔ AllWritable first ∧ AllWritable second :=
  List.forall_mem_append

theorem separated_writable : {pieces : List (List Symbol)} →
    (∀ piece ∈ pieces, AllWritable piece) → AllWritable (separated pieces)
  | [], _ => allWritable_nil
  | [piece], h => h piece (by simp)
  | piece :: next :: rest, h => by
      rw [List.forall_mem_cons] at h
      simp only [separated, allWritable_append, allWritable_cons]
      exact ⟨h.1, mark_writable (by decide), separated_writable h.2⟩

theorem listed_writable (h : ∀ piece ∈ pieces, AllWritable piece) :
    AllWritable (listed pieces) := by
  simp only [listed, allWritable_cons, allWritable_append, allWritable_nil, and_true]
  exact ⟨mark_writable (by decide), separated_writable h, mark_writable (by decide)⟩

theorem braced_writable (h : AllWritable symbols) : AllWritable (braced symbols) := by
  simp only [braced, allWritable_cons, allWritable_append, allWritable_nil, and_true]
  exact ⟨mark_writable (by decide), h, mark_writable (by decide)⟩

theorem after_writable {kind : Kind} {piece : Option (List Symbol)}
    (hkind : kind ∉ [Kind.identifier, .number, .string, .endOfInput])
    (h : ∀ symbols ∈ piece, AllWritable symbols) : AllWritable (after kind piece) := by
  cases piece with
  | none => exact allWritable_nil
  | some symbols => exact allWritable_cons.mpr ⟨mark_writable hkind, h symbols rfl⟩

theorem exists_tokens (h : AllWritable symbols) : ∃ tokens : List Token,
    (∀ token ∈ tokens, token.kind ≠ .endOfInput) ∧ tokens.map Token.symbol = symbols := by
  induction symbols with
  | nil => exact ⟨[], by simp, rfl⟩
  | cons symbol rest ih =>
      obtain ⟨⟨token, hkind, rfl⟩, hrest⟩ := allWritable_cons.mp h
      obtain ⟨tokens, hkinds, rfl⟩ := ih hrest
      exact ⟨token :: tokens, List.forall_mem_cons.mpr ⟨hkind, hkinds⟩, rfl⟩

end Pieces

end Symbol

open Scriptlet.Symbol hiding mark name number text

mutual

theorem TypeExpr.writable : (written : TypeExpr) → AllWritable written.symbols
  | .named name _ => allWritable_cons.mpr ⟨name_writable name, allWritable_nil⟩
  | .function params result _ => by
      simp only [TypeExpr.symbols, allWritable_cons, allWritable_append]
      exact ⟨mark_writable (by decide), listed_writable (TypeExpr.all_writable params),
        after_writable (by decide) (TypeExpr.writable_of_mem result)⟩

theorem TypeExpr.all_writable : (written : List TypeExpr) →
    ∀ piece ∈ TypeExpr.allSymbols written, AllWritable piece
  | [] => nofun
  | written :: rest => List.forall_mem_cons.mpr ⟨written.writable, TypeExpr.all_writable rest⟩

theorem TypeExpr.writable_of_mem : (written : Option TypeExpr) →
    ∀ piece ∈ TypeExpr.symbols? written, AllWritable piece
  | none => nofun
  | some written => fun _ h => Option.some.inj h ▸ written.writable

end

theorem TypeExpr.map_writable (written : Option TypeExpr) :
    ∀ piece ∈ written.map TypeExpr.symbols, AllWritable piece := by
  rw [← TypeExpr.symbols?_eq_map]
  exact TypeExpr.writable_of_mem written

theorem Param.writable (param : Param) : AllWritable param.symbols :=
  allWritable_cons.mpr ⟨name_writable param.name,
    after_writable (by decide) (TypeExpr.map_writable param.declared)⟩

theorem Literal.writable {value : Literal} (h : value.IsRead) : value.symbol.Writable := by
  cases value with
  | int value => exact number_writable h
  | float value => exact number_writable h
  | text value => exact text_writable value
  | bool value => cases value <;> exact mark_writable (by decide)

theorem UnaryOp.writable (op : UnaryOp) : (Symbol.mark op.kind).Writable := by
  cases op <;> exact mark_writable (by decide)

theorem BinaryOp.writable (op : BinaryOp) : (Symbol.mark op.kind).Writable := by
  cases op <;> exact mark_writable (by decide)

mutual

theorem Expr.writable : (expr : Expr) → expr.Grammatical → AllWritable expr.symbols
  | .literal value _, h => allWritable_cons.mpr ⟨Literal.writable h, allWritable_nil⟩
  | .variable name _, _ => allWritable_cons.mpr ⟨name_writable name, allWritable_nil⟩
  | .assign name value _, h => by
      simp only [Expr.symbols, allWritable_cons]
      exact ⟨name_writable name, mark_writable (by decide), value.writable h⟩
  | .group inner _, h => by
      simp only [Expr.symbols, allWritable_cons, allWritable_append, allWritable_nil, and_true]
      exact ⟨mark_writable (by decide), inner.writable h, mark_writable (by decide)⟩
  | .unary op operand _, h => allWritable_cons.mpr ⟨op.writable, operand.writable h.1⟩
  | .binary op left right _, h => by
      simp only [Expr.symbols, allWritable_cons, allWritable_append]
      exact ⟨left.writable h.1, op.writable, right.writable h.2.1⟩
  | .call callee args _, h => by
      simp only [Expr.symbols, allWritable_append]
      exact ⟨callee.writable h.1, listed_writable (Expr.all_writable args h.2.2.1)⟩
  | .function decl _, h => decl.writable h

theorem Expr.all_writable : (exprs : List Expr) → Expr.AllGrammatical exprs →
    ∀ piece ∈ Expr.allSymbols exprs, AllWritable piece
  | [], _ => nofun
  | expr :: rest, h =>
      List.forall_mem_cons.mpr ⟨expr.writable h.1, Expr.all_writable rest h.2⟩

theorem FnDecl.writable : (decl : FnDecl) → decl.Grammatical → AllWritable decl.symbols
  | ⟨name, anonymous, params, result, body, _⟩, h => by
      simp only [FnDecl.symbols, allWritable_cons, allWritable_append]
      refine ⟨mark_writable (by decide), ?_, listed_writable ?_,
        after_writable (by decide) (TypeExpr.map_writable result),
        braced_writable (Stmt.all_writable body h.2)⟩
      · cases anonymous with
        | true => exact allWritable_nil
        | false => exact allWritable_cons.mpr ⟨name_writable name, allWritable_nil⟩
      · exact List.forall_mem_map.mpr fun param _ => param.writable

theorem Stmt.writable : (stmt : Stmt) → stmt.Grammatical → AllWritable stmt.symbols
  | .expression expr, h => expr.writable h.1
  | .binding name declared none _, _ => by
      simp only [Stmt.symbols, allWritable_cons, allWritable_append]
      exact ⟨mark_writable (by decide), name_writable name,
        after_writable (by decide) (TypeExpr.map_writable declared), allWritable_nil⟩
  | .binding name declared (some init) _, h => by
      simp only [Stmt.symbols, allWritable_cons, allWritable_append]
      exact ⟨mark_writable (by decide), name_writable name,
        after_writable (by decide) (TypeExpr.map_writable declared),
        allWritable_cons.mpr ⟨mark_writable (by decide), init.writable h⟩⟩
  | .block block, h => block.writable h
  | .conditional condition thenBlock none _, h => by
      simp only [Stmt.symbols, allWritable_cons, allWritable_append]
      exact ⟨mark_writable (by decide), condition.writable h.1, thenBlock.writable h.2,
        allWritable_nil⟩
  | .conditional condition thenBlock (some otherwise) _, h => by
      simp only [Stmt.symbols, allWritable_cons, allWritable_append]
      exact ⟨mark_writable (by decide), condition.writable h.1, thenBlock.writable h.2.1,
        allWritable_cons.mpr ⟨mark_writable (by decide), otherwise.writable h.2.2.1⟩⟩
  | .loop condition body _, h => by
      simp only [Stmt.symbols, allWritable_cons, allWritable_append]
      exact ⟨mark_writable (by decide), condition.writable h.1, body.writable h.2⟩
  | .function decl, h => decl.writable h
  | .ret none _, _ => allWritable_cons.mpr ⟨mark_writable (by decide), allWritable_nil⟩
  | .ret (some value) _, h => allWritable_cons.mpr ⟨mark_writable (by decide), value.writable h⟩

theorem Stmt.all_writable : (stmts : List Stmt) → Stmt.AllGrammatical stmts →
    AllWritable (Stmt.allSymbols stmts)
  | [], _ => allWritable_nil
  | stmt :: rest, h =>
      allWritable_append.mpr ⟨stmt.writable h.1, Stmt.all_writable rest h.2.2⟩

theorem Block.writable : (block : Block) → block.Grammatical → AllWritable block.symbols
  | ⟨statements, _⟩, h => braced_writable (Stmt.all_writable statements h)

end

end Scriptlet
