import Scriptlet.Proofs.Tree
import Scriptlet.Proofs.Tree.Relabel

/-! Changing labels node by node. A change moves the nodes of a tree one by one, and leaves the
tree as it is if it does nothing to any of their labels. -/

namespace Scriptlet

def Relabel.keeps (change : Relabel) : Node → Prop
  | .expr expr => change.slot expr.mark.ty = expr.mark.ty
  | .stmt (.binding _ _ _ mark) => change.slot mark.ty = mark.ty
  | .stmt _ => True
  | .fn decl =>
      change.slot decl.mark.ty = decl.mark.ty ∧
        change.name decl.anonymous decl.name = decl.name

theorem Stmt.isBranch_relabel (change : Relabel) (stmt : Stmt) :
    (stmt.relabel change).isBranch = stmt.isBranch := by
  cases stmt <;> rfl

def Node.relabel (change : Relabel) : Node → Node
  | .expr e => .expr (e.relabel change)
  | .stmt s => .stmt (s.relabel change)
  | .fn decl => .fn (decl.relabel change)

section Nodes

variable (change : Relabel)

mutual

theorem Expr.nodes_relabel : (expr : Expr) →
    (expr.relabel change).nodes = expr.nodes.map (Node.relabel change)
  | .literal .. => rfl
  | .variable .. => rfl
  | .assign _ value _ => congrArg (_ :: ·) value.nodes_relabel
  | .group inner _ => congrArg (_ :: ·) inner.nodes_relabel
  | .unary _ operand _ => congrArg (_ :: ·) operand.nodes_relabel
  | .binary _ left right _ => by
      rw [Expr.relabel, Expr.nodes, left.nodes_relabel, right.nodes_relabel, ← List.map_append]
      rfl
  | .call callee args _ => by
      rw [Expr.relabel, Expr.nodes, callee.nodes_relabel, Expr.allNodes_relabel args,
        ← List.map_append]
      rfl
  | .function decl _ => congrArg (_ :: ·) decl.nodes_relabel

theorem Expr.allNodes_relabel : (exprs : List Expr) →
    Expr.allNodes (Expr.relabelAll change exprs) =
      (Expr.allNodes exprs).map (Node.relabel change)
  | [] => rfl
  | expr :: rest => by
      rw [Expr.relabelAll, Expr.allNodes, expr.nodes_relabel, Expr.allNodes_relabel rest,
        ← List.map_append]
      rfl

theorem FnDecl.nodes_relabel : (decl : FnDecl) →
    (decl.relabel change).nodes = decl.nodes.map (Node.relabel change)
  | ⟨_, _, _, _, body, _⟩ => congrArg (_ :: ·) (Stmt.allNodes_relabel body)

theorem Stmt.nodes_relabel : (stmt : Stmt) →
    (stmt.relabel change).nodes = stmt.nodes.map (Node.relabel change)
  | .expression expr => congrArg (_ :: ·) expr.nodes_relabel
  | .binding _ _ none _ => rfl
  | .binding _ _ (some init) _ => congrArg (_ :: ·) init.nodes_relabel
  | .block block => congrArg (_ :: ·) block.nodes_relabel
  | .conditional condition thenBlock none _ => by
      rw [Stmt.relabel, Stmt.relabel?, Stmt.nodes, condition.nodes_relabel,
        thenBlock.nodes_relabel, ← List.map_append]
      rfl
  | .conditional condition thenBlock (some otherwise) _ => by
      rw [Stmt.relabel, Stmt.relabel?, Stmt.nodes, condition.nodes_relabel,
        thenBlock.nodes_relabel, otherwise.nodes_relabel, ← List.map_append, ← List.map_append]
      rfl
  | .loop condition body _ => by
      rw [Stmt.relabel, Stmt.nodes, condition.nodes_relabel, body.nodes_relabel,
        ← List.map_append]
      rfl
  | .function decl => congrArg (_ :: ·) decl.nodes_relabel
  | .ret none _ => rfl
  | .ret (some value) _ => congrArg (_ :: ·) value.nodes_relabel

theorem Stmt.allNodes_relabel : (stmts : List Stmt) →
    Stmt.allNodes (Stmt.relabelAll change stmts) =
      (Stmt.allNodes stmts).map (Node.relabel change)
  | [] => rfl
  | stmt :: rest => by
      rw [Stmt.relabelAll, Stmt.allNodes, stmt.nodes_relabel, Stmt.allNodes_relabel rest,
        ← List.map_append]
      rfl

theorem Block.nodes_relabel : (block : Block) →
    (block.relabel change).nodes = block.nodes.map (Node.relabel change)
  | ⟨statements, _⟩ => Stmt.allNodes_relabel statements

end

theorem Program.nodes_relabel (program : Program) :
    (program.relabel change).nodes = program.nodes.map (Node.relabel change) := by
  rw [nodes, relabel, ← Stmt.relabelAll_eq_map, Stmt.allNodes_relabel]
  rfl

end Nodes

section Keeps

variable {change : Relabel}

theorem Relabel.mark_keeps (span : ∀ span, change.span span = span) {mark : Mark}
    (h : change.slot mark.ty = mark.ty) : change.mark mark = mark := by
  rw [Relabel.mark, span, h]

mutual

theorem TypeExpr.relabel_keeps (span : ∀ span, change.span span = span) :
    (written : TypeExpr) → written.relabel change = written
  | .named .. => by rw [TypeExpr.relabel, span]
  | .function params result _ => by
      rw [TypeExpr.relabel, relabelAll_keeps span params, relabel?_keeps span result, span]

theorem TypeExpr.relabelAll_keeps (span : ∀ span, change.span span = span) :
    (written : List TypeExpr) → relabelAll change written = written
  | [] => rfl
  | first :: rest => by rw [relabelAll, first.relabel_keeps span, relabelAll_keeps span rest]

theorem TypeExpr.relabel?_keeps (span : ∀ span, change.span span = span) :
    (written : Option TypeExpr) → relabel? change written = written
  | none => rfl
  | some written => by rw [relabel?, written.relabel_keeps span]

end

theorem TypeExpr.map_relabel_keeps (span : ∀ span, change.span span = span)
    (written : Option TypeExpr) :
    written.map (relabel change) = written := by
  rw [← relabel?_eq_map, relabel?_keeps span]

theorem Param.relabel_keeps (span : ∀ span, change.span span = span) (param : Param) :
    param.relabel change = param := by
  rw [relabel, TypeExpr.map_relabel_keeps span, span]

theorem Param.map_relabel_keeps (span : ∀ span, change.span span = span)
    (params : List Param) :
    params.map (relabel change) = params :=
  (List.map_congr_left fun param _ => param.relabel_keeps span).trans (List.map_id params)

mutual

theorem Expr.relabel_keeps (span : ∀ span, change.span span = span) : (expr : Expr) →
    (∀ node ∈ expr.nodes, change.keeps node) →
    expr.relabel change = expr
  | .literal _ _, h => by
      simp only [Expr.nodes, Relabel.keeps, Expr.mark, List.forall_mem_cons] at h
      rw [Expr.relabel, Relabel.mark_keeps span h.1]
  | .variable _ _, h => by
      simp only [Expr.nodes, Relabel.keeps, Expr.mark, List.forall_mem_cons] at h
      rw [Expr.relabel, Relabel.mark_keeps span h.1]
  | .assign _ value _, h => by
      simp only [Expr.nodes, Relabel.keeps, Expr.mark, List.forall_mem_cons] at h
      rw [Expr.relabel, value.relabel_keeps span h.2, Relabel.mark_keeps span h.1]
  | .group inner _, h => by
      simp only [Expr.nodes, Relabel.keeps, Expr.mark, List.forall_mem_cons] at h
      rw [Expr.relabel, inner.relabel_keeps span h.2, Relabel.mark_keeps span h.1]
  | .unary _ operand _, h => by
      simp only [Expr.nodes, Relabel.keeps, Expr.mark, List.forall_mem_cons] at h
      rw [Expr.relabel, operand.relabel_keeps span h.2, Relabel.mark_keeps span h.1]
  | .binary _ left right _, h => by
      simp only [Expr.nodes, Relabel.keeps, Expr.mark, List.forall_mem_cons,
        List.forall_mem_append] at h
      rw [Expr.relabel, left.relabel_keeps span h.2.1, right.relabel_keeps span h.2.2,
        Relabel.mark_keeps span h.1]
  | .call callee args _, h => by
      simp only [Expr.nodes, Relabel.keeps, Expr.mark, List.forall_mem_cons,
        List.forall_mem_append] at h
      rw [Expr.relabel, callee.relabel_keeps span h.2.1, Expr.relabelAll_keeps span args h.2.2,
        Relabel.mark_keeps span h.1]
  | .function decl _, h => by
      simp only [Expr.nodes, Relabel.keeps, Expr.mark, List.forall_mem_cons] at h
      rw [Expr.relabel, decl.relabel_keeps span h.2, Relabel.mark_keeps span h.1]

theorem Expr.relabelAll_keeps (span : ∀ span, change.span span = span) :
    (exprs : List Expr) → (∀ node ∈ Expr.allNodes exprs, change.keeps node) →
    Expr.relabelAll change exprs = exprs
  | [], _ => rfl
  | expr :: rest, h => by
      simp only [Expr.allNodes, List.forall_mem_append] at h
      rw [Expr.relabelAll, expr.relabel_keeps span h.1, Expr.relabelAll_keeps span rest h.2]

theorem FnDecl.relabel_keeps (span : ∀ span, change.span span = span) : (decl : FnDecl) →
    (∀ node ∈ decl.nodes, change.keeps node) →
    decl.relabel change = decl
  | ⟨name, anonymous, params, result, body, mark⟩, h => by
      simp only [FnDecl.nodes, List.forall_mem_cons] at h
      obtain ⟨⟨hslot, hname⟩, hbody⟩ := h
      rw [FnDecl.relabel, hname, Param.map_relabel_keeps span, TypeExpr.map_relabel_keeps span,
        Stmt.relabelAll_keeps span body hbody, Relabel.mark_keeps span hslot]

theorem Stmt.relabel_keeps (span : ∀ span, change.span span = span) : (stmt : Stmt) →
    (∀ node ∈ stmt.nodes, change.keeps node) →
    stmt.relabel change = stmt
  | .expression expr, h => by
      simp only [Stmt.nodes, List.forall_mem_cons] at h
      rw [Stmt.relabel, expr.relabel_keeps span h.2]
  | .binding _ _ none _, h => by
      simp only [Stmt.nodes, Relabel.keeps, List.forall_mem_cons] at h
      rw [Stmt.relabel, TypeExpr.map_relabel_keeps span, Relabel.mark_keeps span h.1,
        Expr.relabel?]
  | .binding _ _ (some init) _, h => by
      simp only [Stmt.nodes, Relabel.keeps, List.forall_mem_cons] at h
      rw [Stmt.relabel, TypeExpr.map_relabel_keeps span, Relabel.mark_keeps span h.1,
        Expr.relabel?, init.relabel_keeps span h.2]
  | .block block, h => by
      simp only [Stmt.nodes, List.forall_mem_cons] at h
      rw [Stmt.relabel, block.relabel_keeps span h.2]
  | .conditional condition thenBlock none _, h => by
      simp only [Stmt.nodes, List.forall_mem_cons, List.forall_mem_append] at h
      rw [Stmt.relabel, condition.relabel_keeps span h.2.1, thenBlock.relabel_keeps span h.2.2,
        span, Stmt.relabel?]
  | .conditional condition thenBlock (some otherwise) _, h => by
      simp only [Stmt.nodes, List.forall_mem_cons, List.forall_mem_append] at h
      rw [Stmt.relabel, condition.relabel_keeps span h.2.1, thenBlock.relabel_keeps span h.2.2.1,
        span, Stmt.relabel?, otherwise.relabel_keeps span h.2.2.2]
  | .loop condition body _, h => by
      simp only [Stmt.nodes, List.forall_mem_cons, List.forall_mem_append] at h
      rw [Stmt.relabel, condition.relabel_keeps span h.2.1, body.relabel_keeps span h.2.2, span]
  | .function decl, h => by
      simp only [Stmt.nodes, List.forall_mem_cons] at h
      rw [Stmt.relabel, decl.relabel_keeps span h.2]
  | .ret none _, _ => by rw [Stmt.relabel, Expr.relabel?, span]
  | .ret (some value) _, h => by
      simp only [Stmt.nodes, List.forall_mem_cons] at h
      rw [Stmt.relabel, Expr.relabel?, value.relabel_keeps span h.2, span]

theorem Stmt.relabelAll_keeps (span : ∀ span, change.span span = span) :
    (stmts : List Stmt) → (∀ node ∈ Stmt.allNodes stmts, change.keeps node) →
    Stmt.relabelAll change stmts = stmts
  | [], _ => rfl
  | stmt :: rest, h => by
      simp only [Stmt.allNodes, List.forall_mem_append] at h
      rw [Stmt.relabelAll, stmt.relabel_keeps span h.1, Stmt.relabelAll_keeps span rest h.2]

theorem Block.relabel_keeps (span : ∀ span, change.span span = span) : (block : Block) →
    (∀ node ∈ block.nodes, change.keeps node) →
    block.relabel change = block
  | ⟨statements, _⟩, h => by
      rw [Block.relabel, Stmt.relabelAll_keeps span statements h, span]

end

end Keeps

theorem Stmt.map_relabel_unchanged (stmts : List Stmt) :
    stmts.map (Stmt.relabel .unchanged) = stmts := by
  rw [← relabelAll_eq_map]
  refine relabelAll_keeps (fun _ => rfl) stmts fun node _ => ?_
  cases node with
  | expr expr => rfl
  | stmt stmt => cases stmt <;> first | rfl | trivial
  | fn decl => exact ⟨rfl, ite_self _⟩

theorem Program.relabel_unchanged (program : Program) : program.relabel .unchanged = program := by
  rw [relabel, Stmt.map_relabel_unchanged]

end Scriptlet
