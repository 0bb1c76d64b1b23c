import Scriptlet.Proofs.Tree.Labels

/-! Trees that lose types and nothing else. A fresh tree has none to lose. -/

namespace Scriptlet

namespace Relabel

def untyped : Relabel := ⟨id, fun _ => none, id⟩

/-- The change leaves every slot as it is or empties it, and leaves all other labels alone. -/
structure Clears (change : Relabel) : Prop where
  span : ∀ span, change.span span = span
  unnamed : ∀ name, change.unnamed name = name
  slot : ∀ slot, change.slot slot = none ∨ change.slot slot = slot

theorem clears_untyped : untyped.Clears := ⟨fun _ => rfl, fun _ => rfl, fun _ => .inl rfl⟩

theorem clears_unchanged : unchanged.Clears := ⟨fun _ => rfl, fun _ => rfl, fun _ => .inr rfl⟩

namespace Clears

variable {change : Relabel} (clears : change.Clears)

include clears

theorem name (anonymous : Bool) (name : String) : change.name anonymous name = name := by
  cases anonymous
  · rfl
  · exact clears.unnamed name

theorem span_mark (mark : Mark) : (change.mark mark).span = mark.span := clears.span mark.span

theorem mark {mark : Mark} (slot : mark.ty = none) : change.mark mark = mark :=
  mark_keeps clears.span ((clears.slot mark.ty).elim (·.trans slot.symm) id)

theorem keeps_of_fresh {node : Node} (h : node.isFresh) : change.keeps node := by
  have hslot {ty : Option Ty} (hty : ty.isNone) : change.slot ty = ty :=
    (clears.slot ty).elim (·.trans (Option.isNone_iff_eq_none.mp hty).symm) id
  cases node with
  | expr expr => exact hslot h
  | stmt stmt =>
      cases stmt with
      | binding name declared init mark => exact hslot h
      | _ => trivial
  | fn decl => exact ⟨hslot h, clears.name ..⟩

theorem written (written : TypeExpr) : written.relabel change = written :=
  written.relabel_keeps clears.span

theorem written? (written : Option TypeExpr) : written.map (TypeExpr.relabel change) = written :=
  TypeExpr.map_relabel_keeps clears.span written

theorem params (params : List Param) : params.map (Param.relabel change) = params :=
  Param.map_relabel_keeps clears.span params

theorem expr {expr : Expr} (h : Fresh expr.nodes) : expr.relabel change = expr :=
  expr.relabel_keeps clears.span fun node hmem => clears.keeps_of_fresh (h node hmem)

theorem exprs {exprs : List Expr} (h : Fresh (Expr.allNodes exprs)) :
    exprs.map (Expr.relabel change) = exprs := by
  rw [← Expr.relabelAll_eq_map]
  exact Expr.relabelAll_keeps clears.span exprs fun node hmem =>
    clears.keeps_of_fresh (h node hmem)

theorem stmt {stmt : Stmt} (h : Fresh stmt.nodes) : stmt.relabel change = stmt :=
  stmt.relabel_keeps clears.span fun node hmem => clears.keeps_of_fresh (h node hmem)

theorem stmt? {stmt : Option Stmt} (h : ∀ inner ∈ stmt, Fresh inner.nodes) :
    stmt.map (Stmt.relabel change) = stmt := by
  cases stmt with
  | none => rfl
  | some inner => rw [Option.map_some, clears.stmt (h inner rfl)]

theorem stmts {stmts : List Stmt} (h : Fresh (Stmt.allNodes stmts)) :
    stmts.map (Stmt.relabel change) = stmts := by
  rw [← Stmt.relabelAll_eq_map]
  exact Stmt.relabelAll_keeps clears.span stmts fun node hmem =>
    clears.keeps_of_fresh (h node hmem)

theorem block {block : Block} (h : Fresh block.nodes) : block.relabel change = block :=
  block.relabel_keeps clears.span fun node hmem => clears.keeps_of_fresh (h node hmem)

end Clears

end Relabel

end Scriptlet
