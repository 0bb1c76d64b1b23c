import Scriptlet.Syntax

/-! The nodes of a tree, and what can be said of a tree node by node. A tree is fresh as long
as no slot of it is filled and every `else` leads to a block or to another condition; that is
how trees are read from source text. -/

namespace Scriptlet

inductive Node where
  | expr (expr : Expr)
  | stmt (stmt : Stmt)
  | fn (decl : FnDecl)

mutual

def Expr.nodes : Expr → List Node
  | .literal value mark => [.expr (.literal value mark)]
  | .variable name mark => [.expr (.variable name mark)]
  | .assign name value mark => .expr (.assign name value mark) :: value.nodes
  | .group inner mark => .expr (.group inner mark) :: inner.nodes
  | .unary op operand mark => .expr (.unary op operand mark) :: operand.nodes
  | .binary op left right mark =>
      .expr (.binary op left right mark) :: (left.nodes ++ right.nodes)
  | .call callee args mark =>
      .expr (.call callee args mark) :: (callee.nodes ++ Expr.allNodes args)
  | .function decl mark => .expr (.function decl mark) :: decl.nodes

def Expr.allNodes : List Expr → List Node
  | [] => []
  | expr :: rest => expr.nodes ++ Expr.allNodes rest

def FnDecl.nodes : FnDecl → List Node
  | ⟨name, anonymous, params, result, body, mark⟩ =>
      .fn ⟨name, anonymous, params, result, body, mark⟩ :: Stmt.allNodes body

def Stmt.nodes : Stmt → List Node
  | .expression expr => .stmt (.expression expr) :: expr.nodes
  | .binding name declared none mark => [.stmt (.binding name declared none mark)]
  | .binding name declared (some init) mark =>
      .stmt (.binding name declared (some init) mark) :: init.nodes
  | .block block => .stmt (.block block) :: block.nodes
  | .conditional condition thenBlock none span =>
      .stmt (.conditional condition thenBlock none span) :: (condition.nodes ++ thenBlock.nodes)
  | .conditional condition thenBlock (some otherwise) span =>
      .stmt (.conditional condition thenBlock (some otherwise) span) ::
        (condition.nodes ++ (thenBlock.nodes ++ otherwise.nodes))
  | .loop condition body span =>
      .stmt (.loop condition body span) :: (condition.nodes ++ body.nodes)
  | .function decl => .stmt (.function decl) :: decl.nodes
  | .ret none span => [.stmt (.ret none span)]
  | .ret (some value) span => .stmt (.ret (some value) span) :: value.nodes

def Stmt.allNodes : List Stmt → List Node
  | [] => []
  | stmt :: rest => stmt.nodes ++ Stmt.allNodes rest

def Block.nodes : Block → List Node
  | ⟨statements, _⟩ => Stmt.allNodes statements

end

theorem FnDecl.nodes_eq (decl : FnDecl) : decl.nodes = .fn decl :: Stmt.allNodes decl.body := by
  cases decl
  rfl

theorem FnDecl.mem_nodes (decl : FnDecl) : .fn decl ∈ decl.nodes := by
  rw [nodes_eq]
  exact List.mem_cons_self

theorem Block.nodes_eq (block : Block) : block.nodes = Stmt.allNodes block.statements := by
  cases block
  rfl

theorem Stmt.nodes_conditional (condition : Expr) (thenBlock : Block) (otherwise : Option Stmt)
    (span : Span) :
    (Stmt.conditional condition thenBlock otherwise span).nodes =
      .stmt (.conditional condition thenBlock otherwise span) ::
        (condition.nodes ++ (Stmt.allNodes thenBlock.statements ++
          (otherwise.map Stmt.nodes).getD [])) := by
  cases otherwise <;> simp [nodes, Block.nodes_eq]

theorem Expr.mem_nodes (expr : Expr) : .expr expr ∈ expr.nodes := by
  cases expr <;> exact List.mem_cons_self

theorem Stmt.mem_nodes (stmt : Stmt) : .stmt stmt ∈ stmt.nodes := by
  cases stmt with
  | binding name declared init mark => cases init <;> exact List.mem_cons_self
  | conditional condition thenBlock otherwise span => cases otherwise <;> exact List.mem_cons_self
  | ret value span => cases value <;> exact List.mem_cons_self
  | _ => exact List.mem_cons_self

def Program.nodes (program : Program) : List Node := Stmt.allNodes program.statements

def Stmt.isBranch : Stmt → Bool
  | .block _ | .conditional .. => true
  | _ => false

/-- The node's slot is empty, and its `else` leads where one may lead. -/
def Node.isFresh : Node → Bool
  | .expr e => e.mark.ty.isNone
  | .stmt (.binding _ _ _ mark) => mark.ty.isNone
  | .stmt (.conditional _ _ (some otherwise) _) => otherwise.isBranch
  | .stmt _ => true
  | .fn decl => decl.mark.ty.isNone

def Fresh (nodes : List Node) : Prop := ∀ node ∈ nodes, node.isFresh

instance (nodes : List Node) : Decidable (Fresh nodes) :=
  inferInstanceAs (Decidable (∀ node ∈ nodes, node.isFresh))

@[simp] theorem fresh_nil : Fresh [] := by simp [Fresh]

@[simp] theorem fresh_cons {node : Node} {nodes : List Node} :
    Fresh (node :: nodes) ↔ node.isFresh ∧ Fresh nodes := by simp [Fresh]

@[simp] theorem fresh_append {first second : List Node} :
    Fresh (first ++ second) ↔ Fresh first ∧ Fresh second := List.forall_mem_append

end Scriptlet
