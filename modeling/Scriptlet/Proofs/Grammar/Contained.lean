import Scriptlet.Proofs.Grammar.Phrases
import Scriptlet.Syntax.Outline

/-! The phrases that a program contains. Every row of its outline stands for one of them. -/

namespace Scriptlet

namespace Program

def pieces (program : Program) : List Piece := Piece.statements program.statements

/-- A statement of the program, or whatever is next below a phrase of it. -/
inductive Contains (program : Program) : Phrase → Prop
  | top {phrase : Phrase} (h : phrase ∈ Piece.parts program.pieces) : Contains program phrase
  | part {phrase part : Phrase} (hphrase : Contains program phrase) (h : part ∈ phrase.parts) :
      Contains program part

variable {program : Program} {tokens : List Token} {phrase part : Phrase}

theorem Contains.next (h : program.Contains phrase)
    (hpart : part ∈ phrase.parts := by
      simp [Phrase.parts, Phrase.pieces, Expr.pieces, FnDecl.pieces, Stmt.pieces]) :
    program.Contains part :=
  .part h hpart

theorem Contains.exists_own (h : program.Contains phrase)
    (hcovered : Covered program.pieces tokens) :
    ∃ front own back, tokens = front ++ (own ++ back) ∧ Covered phrase.pieces own ∧
      phrase.span.RunsOver own := by
  induction h with
  | top h => exact hcovered.exists_own h
  | part _ hpart ih =>
      obtain ⟨front, outer, back, rfl, houter, _⟩ := ih
      obtain ⟨before, own, after, rfl, hown, hspan⟩ := houter.exists_own hpart
      exact ⟨front ++ before, own, after ++ back, by simp, hown, hspan⟩

def Shows (program : Program) (row : OutlineRow) : Prop :=
  ∃ phrase, program.Contains phrase ∧ row.span = phrase.span

def ShowsAll (program : Program) (rows : List OutlineRow) : Prop :=
  ∀ row ∈ rows, program.Shows row

variable {row : OutlineRow} {rows first second : List OutlineRow}

theorem showsAll_nil : program.ShowsAll [] := by simp [ShowsAll]

theorem ShowsAll.append (hfirst : program.ShowsAll first) (hsecond : program.ShowsAll second) :
    program.ShowsAll (first ++ second) :=
  List.forall_mem_append.mpr ⟨hfirst, hsecond⟩

theorem Contains.showsAll (h : program.Contains phrase) (hrest : program.ShowsAll rows)
    (hrow : row.span = phrase.span := by rfl) : program.ShowsAll (row :: rows) :=
  List.forall_mem_cons.mpr ⟨⟨phrase, h, hrow⟩, hrest⟩

end Program

section Rows

open Program (showsAll_nil)

variable {program : Program}

theorem TypeExpr.shows_rows {written : Option TypeExpr}
    (h : ∀ type ∈ written, program.Contains (.written type)) :
    program.ShowsAll (TypeExpr.rows written) := by
  cases written with
  | none => exact showsAll_nil
  | some type => exact (h type rfl).showsAll showsAll_nil

theorem Param.shows_rows {param : Param} (h : program.Contains (.param param)) :
    program.ShowsAll param.rows := by
  refine h.showsAll (TypeExpr.shows_rows fun type htype => ?_)
  exact h.part (by simpa [Phrase.parts, Phrase.pieces, pieces] using htype)

theorem Stmt.shows_declared {name : String} {declared : Option TypeExpr} {init : Option Expr}
    {mark : Mark} (h : program.Contains (.stmt (.binding name declared init mark))) :
    program.ShowsAll (TypeExpr.rows declared) :=
  TypeExpr.shows_rows fun type htype => h.part (by
    simp [Phrase.parts, Phrase.pieces, pieces, Option.mem_def.mp htype])

theorem FnDecl.parts_eq (decl : FnDecl) : Phrase.parts (.function decl) =
    decl.params.map .param ++ ((decl.result.map .written).toList ++ decl.body.map .stmt) := by
  cases hname : decl.anonymous <;> simp [Phrase.parts, Phrase.pieces, pieces, hname]

mutual

theorem Expr.shows_rows : (expr : Expr) → program.Contains (.expr expr) →
    program.ShowsAll expr.rows
  | .literal .., h | .variable .., h => h.showsAll showsAll_nil
  | .assign _ value _, h => h.showsAll (value.shows_rows h.next)
  | .group inner _, h => h.showsAll (inner.shows_rows h.next)
  | .unary _ operand _, h => h.showsAll (operand.shows_rows h.next)
  | .binary _ left right _, h =>
      h.showsAll ((left.shows_rows h.next).append (right.shows_rows h.next))
  | .call callee args _, h => by
      refine h.showsAll ((callee.shows_rows h.next).append ?_)
      refine Expr.shows_allRows args fun arg harg => h.part ?_
      simp [Phrase.parts, Phrase.pieces, Expr.pieces, harg]
  | .function decl _, h => h.showsAll (decl.shows_rows h.next)

theorem Expr.shows_allRows : (exprs : List Expr) →
    (∀ expr ∈ exprs, program.Contains (.expr expr)) → program.ShowsAll (Expr.allRows exprs)
  | [], _ => showsAll_nil
  | expr :: rest, h =>
      have ⟨hexpr, hrest⟩ := List.forall_mem_cons.mp h
      (expr.shows_rows hexpr).append (Expr.shows_allRows rest hrest)

theorem FnDecl.shows_rows : (decl : FnDecl) → program.Contains (.function decl) →
    program.ShowsAll decl.rows
  | ⟨name, anonymous, params, result, body, mark⟩, h => by
      have hparams : program.ShowsAll (params.flatMap Param.rows) :=
        List.forall_mem_flatMap.mpr fun param hparam => Param.shows_rows
          (h.part (by simp [FnDecl.parts_eq, hparam]))
      have hresult : program.ShowsAll (TypeExpr.rows result) := TypeExpr.shows_rows
        fun type htype => h.part (by simp [FnDecl.parts_eq, Option.mem_def.mp htype])
      have hbody := Stmt.shows_allRows body
        fun stmt hstmt => h.part (by simp [FnDecl.parts_eq, hstmt])
      exact h.showsAll ((hparams.append hresult).append hbody)

theorem Block.shows_rows : (block : Block) → program.Contains (.block block) →
    program.ShowsAll block.rows
  | ⟨statements, _⟩, h => Stmt.shows_allRows statements fun stmt hstmt => h.part (by
      simp [Phrase.parts, Phrase.pieces, hstmt])

theorem Stmt.shows_rows : (stmt : Stmt) → program.Contains (.stmt stmt) →
    program.ShowsAll stmt.rows
  | .expression expr, h => h.showsAll (expr.shows_rows h.next)
  | .binding _ declared none _, h => h.showsAll (Stmt.shows_declared h)
  | .binding _ declared (some init) _, h =>
      h.showsAll ((Stmt.shows_declared h).append (init.shows_rows h.next))
  | .block block, h => h.showsAll (block.shows_rows h.next)
  | .conditional condition thenBlock none _, h =>
      have hthen : program.Contains (.block thenBlock) := h.next
      h.showsAll ((condition.shows_rows h.next).append
        (hthen.showsAll (thenBlock.shows_rows hthen)))
  | .conditional condition thenBlock (some otherwise) _, h =>
      have hthen : program.Contains (.block thenBlock) := h.next
      h.showsAll ((condition.shows_rows h.next).append
        (hthen.showsAll ((thenBlock.shows_rows hthen).append (otherwise.shows_rows h.next))))
  | .loop condition body _, h =>
      have hbody : program.Contains (.block body) := h.next
      h.showsAll ((condition.shows_rows h.next).append (hbody.showsAll (body.shows_rows hbody)))
  | .function decl, h => h.showsAll (decl.shows_rows h.next)
  | .ret none _, h => h.showsAll showsAll_nil
  | .ret (some value) _, h => h.showsAll (value.shows_rows h.next)

theorem Stmt.shows_allRows : (stmts : List Stmt) →
    (∀ stmt ∈ stmts, program.Contains (.stmt stmt)) → program.ShowsAll (Stmt.allRows stmts)
  | [], _ => showsAll_nil
  | stmt :: rest, h =>
      have ⟨hstmt, hrest⟩ := List.forall_mem_cons.mp h
      (stmt.shows_rows hstmt).append (Stmt.shows_allRows rest hrest)

end

theorem Program.shows_outline (program : Program) : program.ShowsAll program.outline :=
  Stmt.shows_allRows program.statements fun stmt hstmt => .top (by simp [pieces, hstmt])

end Rows

end Scriptlet
