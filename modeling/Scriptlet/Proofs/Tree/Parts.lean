import Scriptlet.Proofs.Tree.Labels

/-! The parts of a tree. The nodes below a node of a tree are nodes of the tree as well. -/

namespace Scriptlet

def Node.nodes : Node → List Node
  | .expr e => e.nodes
  | .stmt s => s.nodes
  | .fn decl => decl.nodes

/-- Whatever is below one of the nodes is among them. -/
def Whole (nodes : List Node) : Prop := ∀ node ∈ nodes, node.nodes ⊆ nodes

section Whole

variable {node : Node} {nodes first second : List Node}

theorem whole_nil : Whole [] := by simp [Whole]

theorem Whole.append (hfirst : Whole first) (hsecond : Whole second) :
    Whole (first ++ second) := by
  intro node hnode
  rcases List.mem_append.mp hnode with hnode | hnode
  · exact List.subset_append_of_subset_left _ (hfirst node hnode)
  · exact List.subset_append_of_subset_right _ (hsecond node hnode)

theorem Whole.below (heq : node.nodes = node :: nodes) (h : Whole nodes) :
    Whole (node :: nodes) := by
  refine List.forall_mem_cons.mpr ⟨heq ▸ List.Subset.refl _, fun part hpart => ?_⟩
  exact List.subset_cons_of_subset _ (h part hpart)

end Whole

mutual

theorem Expr.whole : (expr : Expr) → Whole expr.nodes
  | .literal .. | .variable .. => .below rfl whole_nil
  | .assign _ value _ => .below rfl value.whole
  | .group inner _ => .below rfl inner.whole
  | .unary _ operand _ => .below rfl operand.whole
  | .binary _ left right _ => .below rfl (left.whole.append right.whole)
  | .call callee args _ => .below rfl (callee.whole.append (Expr.allWhole args))
  | .function decl _ => .below rfl decl.whole

theorem Expr.allWhole : (exprs : List Expr) → Whole (Expr.allNodes exprs)
  | [] => whole_nil
  | expr :: rest => expr.whole.append (Expr.allWhole rest)

theorem FnDecl.whole : (decl : FnDecl) → Whole decl.nodes
  | ⟨_, _, _, _, body, _⟩ => .below rfl (Stmt.allWhole body)

theorem Stmt.whole : (stmt : Stmt) → Whole stmt.nodes
  | .expression expr => .below rfl expr.whole
  | .binding _ _ none _ => .below rfl whole_nil
  | .binding _ _ (some init) _ => .below rfl init.whole
  | .block block => .below rfl block.whole
  | .conditional condition thenBlock none _ => .below rfl (condition.whole.append thenBlock.whole)
  | .conditional condition thenBlock (some otherwise) _ =>
      .below rfl (condition.whole.append (thenBlock.whole.append otherwise.whole))
  | .loop condition body _ => .below rfl (condition.whole.append body.whole)
  | .function decl => .below rfl decl.whole
  | .ret none _ => .below rfl whole_nil
  | .ret (some value) _ => .below rfl value.whole

theorem Stmt.allWhole : (stmts : List Stmt) → Whole (Stmt.allNodes stmts)
  | [] => whole_nil
  | stmt :: rest => stmt.whole.append (Stmt.allWhole rest)

theorem Block.whole : (block : Block) → Whole block.nodes
  | ⟨statements, _⟩ => Stmt.allWhole statements

end

end Scriptlet
