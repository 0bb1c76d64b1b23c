import Scriptlet.Proofs.Errors.Parse
import Scriptlet.Proofs.Typing.Decided

/-! The span of a type error is one of the program's own: that of an expression, a statement or
a parameter. -/

namespace Scriptlet

def SpanOf (nodes : List Node) (span : Span) : Prop := ∃ node ∈ nodes, span ∈ node.spans

section SpanOf

variable {source : String} {span : Span} {node : Node} {nodes first second : List Node}

theorem SpanOf.within (h : SpanOf nodes span) (hnodes : SpansWithin source nodes) :
    span.Within source := by
  obtain ⟨node, hmem, hspan⟩ := h
  exact hnodes node hmem span hspan

theorem SpanOf.of_subset (h : SpanOf first span) (hsubset : first ⊆ second) :
    SpanOf second span := by
  obtain ⟨node, hmem, hspan⟩ := h
  exact ⟨node, hsubset hmem, hspan⟩

theorem SpanOf.below (h : SpanOf nodes span) : SpanOf (node :: nodes) span :=
  h.of_subset (List.subset_cons_self _ _)

theorem SpanOf.left (h : SpanOf first span) : SpanOf (first ++ second) span :=
  h.of_subset (List.subset_append_left _ _)

theorem SpanOf.right (h : SpanOf second span) : SpanOf (first ++ second) span :=
  h.of_subset (List.subset_append_right _ _)

theorem spanOf_expr (expr : Expr) : SpanOf expr.nodes expr.span :=
  ⟨_, expr.mem_nodes, by simp [Node.spans]⟩

theorem spanOf_stmt (stmt : Stmt) : SpanOf stmt.nodes stmt.span :=
  ⟨_, stmt.mem_nodes, by simp [Node.spans]⟩

end SpanOf

mutual

theorem ExprStuck.spanOf {context : Context} {expr : Expr} {e : TypeError} :
    ExprStuck context expr e → SpanOf expr.nodes e.span
  | .undefined .. | .undeclared .. | .assignment .. | .operand .. | .operands .. | .arity .. =>
      spanOf_expr _
  | .assigned _ hvalue _ => hvalue.spanOf.below
  | .group hinner _ => hinner.spanOf.below
  | .unary hoperand _ => hoperand.spanOf.below
  | .left hleft _ _ => hleft.spanOf.left.below
  | .right _ hright _ => hright.spanOf.right.below
  | .callee hcallee _ _ => hcallee.spanOf.left.below
  | .notCallable .. => (spanOf_expr _).left.below
  | .args _ _ hargs _ => hargs.spanOf.right.below
  | .function hdecl _ => hdecl.spanOf.below

theorem ArgsStuck.spanOf {context : Context} {number : Nat} {args : List Expr} {params : List Ty}
    {e : TypeError} : ArgsStuck context number args params e → SpanOf (Expr.allNodes args) e.span
  | .here harg _ => harg.spanOf.left
  | .mismatch .. => (spanOf_expr _).left
  | .later _ _ hargs => hargs.spanOf.right

theorem FnStuck.spanOf {context : Context} {visible : NameScope} {decl : FnDecl} {e : TypeError} :
    FnStuck context visible decl e → SpanOf decl.nodes e.span
  | .parameter hparams _ _ _ _ => ⟨_, decl.mem_nodes, by simp [Node.spans, hparams]⟩
  | .body _ _ hbody => decl.nodes_eq ▸ hbody.spanOf.below

theorem StmtStuck.spanOf {context : Context} {stmt : Stmt} {e : TypeError} :
    StmtStuck context stmt e → SpanOf stmt.nodes e.span
  | .expression hexpr => hexpr.spanOf.below
  | .untyped _ | .initializer _ _ _ | .finish _ _ | .ret _ _ _ => spanOf_stmt _
  | .init hinit _ => hinit.spanOf.below
  | .block hblock => (Block.nodes_eq _ ▸ hblock.spanOf).below
  | .condition hcondition _ _ => Stmt.nodes_conditional .. ▸ hcondition.spanOf.left.below
  | .thenBlock _ hthenBlock _ =>
      Stmt.nodes_conditional .. ▸ hthenBlock.spanOf.left.right.below
  | .otherwise _ _ hotherwise => hotherwise.spanOf.right.right.below
  | .loop hcondition _ => hcondition.spanOf.left.below
  | .body _ hbody => (Block.nodes_eq _ ▸ hbody.spanOf).right.below
  | .function hdecl => hdecl.spanOf.below
  | .value hvalue => hvalue.spanOf.below

theorem StmtsStuck.spanOf {context : Context} {stmts : List Stmt} {e : TypeError} :
    StmtsStuck context stmts e → SpanOf (Stmt.allNodes stmts) e.span
  | .here hstmt _ => hstmt.spanOf.left
  | .later _ hrest => hrest.spanOf.right

end

namespace Program

variable {source : String} {program : Program} {checker : Checker}

theorem check_untyped (fresh : Fresh program.nodes) (checker : Checker) :
    (program.check checker).node.relabel .untyped = program := by
  obtain ⟨typed, rfl, htyped⟩ | ⟨stuck, e, rfl, hstuck⟩ := decided fresh checker.context
  · rw [check_of_typed Relabel.clears_untyped htyped]
  · obtain ⟨after, hcheck⟩ := check_of_stuck hstuck
    rw [hcheck Relabel.clears_untyped]

theorem spanOf_check (fresh : Fresh program.nodes) {e : TypeError}
    (h : (program.check checker).result = .error e) :
    SpanOf (program.check checker).node.nodes e.span := by
  obtain ⟨typed, rfl, htyped⟩ | ⟨stuck, found, rfl, hstuck⟩ := decided fresh checker.context
  · rw [check_of_typed Relabel.clears_untyped htyped] at h
    cases h
  · obtain ⟨after, hcheck⟩ := check_of_stuck hstuck
    rw [hcheck Relabel.clears_untyped] at h ⊢
    obtain rfl : found = e := Except.error.inj h
    exact hstuck.spanOf

end Program

theorem Node.spans_relabel (change : Relabel) (node : Node) :
    (node.relabel change).spans = node.spans.map change.span := by
  cases node with
  | expr e => simp [Node.relabel, Node.spans]
  | stmt s => cases s <;> simp [Node.relabel, Node.spans, Stmt.relabel, Stmt.span, Relabel.mark]
  | fn decl => cases decl; simp [Node.relabel, Node.spans, FnDecl.relabel, Relabel.mark,
      Param.relabel]

theorem Program.check_spansWithin {source : String} {program : Program}
    (fresh : Fresh program.nodes) (checker : Checker) (h : SpansWithin source program.nodes) :
    SpansWithin source (program.check checker).node.nodes := by
  intro node hmem span hspan
  refine h (node.relabel .untyped) ?_ span ?_
  · rw [← check_untyped fresh checker, nodes_relabel]
    exact List.mem_map_of_mem hmem
  · rw [Node.spans_relabel]
    exact List.mem_map.mpr ⟨span, hspan, rfl⟩

end Scriptlet
