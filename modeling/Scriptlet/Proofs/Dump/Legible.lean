import Scriptlet.Proofs.Dump.Words

/-! Trees whose dumps can be read. Their names are words, their texts have no quotes in them, and no
function stands alone where a statement begins; then their forms are read as they are written. -/

namespace Scriptlet

open Form

structure Param.Legible (param : Param) : Prop where
  name : IsName param.name
  declared : ∀ written ∈ param.declared, written.Legible

structure FnDecl.Legible (decl : FnDecl) : Prop where
  name : IsFunctionName decl.anonymous decl.name
  params : ∀ param ∈ decl.params, param.Legible
  result : ∀ written ∈ decl.result, written.Legible

def Expr.isFunction : Expr → Bool
  | .function .. => true
  | _ => false

def Node.Legible : Node → Prop
  | .expr (.literal value _) => value.Legible
  | .expr (.variable name _) | .expr (.assign name _ _) => IsName name
  | .stmt (.expression e) => ¬e.isFunction
  | .stmt (.binding name declared _ _) => IsName name ∧ ∀ written ∈ declared, written.Legible
  | .fn decl => decl.Legible
  | _ => True

def AllNodesLegible (nodes : List Node) : Prop := ∀ node ∈ nodes, node.Legible

section Nodes

variable {node : Node} {nodes first second : List Node}

@[simp] theorem allNodesLegible_cons :
    AllNodesLegible (node :: nodes) ↔ node.Legible ∧ AllNodesLegible nodes :=
  List.forall_mem_cons

@[simp] theorem allNodesLegible_append : AllNodesLegible (first ++ second) ↔
    AllNodesLegible first ∧ AllNodesLegible second := List.forall_mem_append

end Nodes

section Forms

theorem Form.legible_plain {word : String} (h : IsFormWord word.toList) : (plain word).Legible :=
  ⟨h, by simp⟩

theorem Form.legible_list {head : String} {operands : List Form} (hhead : IsFormWord head.toList)
    (h : ∀ operand ∈ operands, operand.Legible) : (list (plain head :: operands) none).Legible :=
  ⟨⟨legible_plain hhead, allLegible_iff.mpr h⟩, by simp⟩

theorem BinaryOp.isFormWord_symbol (op : BinaryOp) : IsFormWord op.symbol.toList := by
  cases op <;> decide

theorem UnaryOp.isFormWord_symbol (op : UnaryOp) : IsFormWord op.symbol.toList := by
  cases op <;> decide

theorem Param.legible_form {param : Param} (h : param.Legible) : param.form.Legible :=
  ⟨h.name.isFormWord, h.declared⟩

theorem FnDecl.Legible.params_form {decl : FnDecl} (h : decl.Legible) :
    (Form.list (decl.params.map Param.form) decl.result).Legible := by
  refine ⟨allLegible_iff.mpr fun form hform => ?_, h.result⟩
  obtain ⟨param, hparam, rfl⟩ := List.mem_map.mp hform
  exact Param.legible_form (h.params param hparam)

mutual

theorem Expr.legible_form : (expr : Expr) → AllNodesLegible expr.nodes → expr.form.Legible
  | .literal _ _, h => Literal.legible_form (h _ List.mem_cons_self)
  | .variable _ _, h => Form.legible_plain (IsName.isFormWord (h _ List.mem_cons_self))
  | .assign name value _, h => by
      obtain ⟨hname, hvalue⟩ := allNodesLegible_cons.mp h
      exact Form.legible_list (by decide)
        (by simp [Form.legible_plain (IsName.isFormWord hname), value.legible_form hvalue])
  | .group inner _, h => by
      obtain ⟨-, hinner⟩ := allNodesLegible_cons.mp h
      exact Form.legible_list (by decide) (by simp [inner.legible_form hinner])
  | .unary op operand _, h => by
      obtain ⟨-, hoperand⟩ := allNodesLegible_cons.mp h
      exact Form.legible_list op.isFormWord_symbol (by simp [operand.legible_form hoperand])
  | .binary op left right _, h => by
      obtain ⟨-, hoperands⟩ := allNodesLegible_cons.mp h
      obtain ⟨hleft, hright⟩ := allNodesLegible_append.mp hoperands
      exact Form.legible_list op.isFormWord_symbol
        (by simp [left.legible_form hleft, right.legible_form hright])
  | .call callee args _, h => by
      obtain ⟨-, hoperands⟩ := allNodesLegible_cons.mp h
      obtain ⟨hcallee, hargs⟩ := allNodesLegible_append.mp hoperands
      exact Form.legible_list (by decide)
        (List.forall_mem_cons.mpr ⟨callee.legible_form hcallee, Expr.legible_forms args hargs⟩)
  | .function decl _, h => decl.legible_form (allNodesLegible_cons.mp h).2

theorem Expr.legible_forms : (exprs : List Expr) → AllNodesLegible (Expr.allNodes exprs) →
    ∀ form ∈ Expr.forms exprs, form.Legible
  | [], _ => by simp [Expr.forms]
  | expr :: rest, h => by
      obtain ⟨hexpr, hrest⟩ := allNodesLegible_append.mp h
      exact List.forall_mem_cons.mpr ⟨expr.legible_form hexpr, Expr.legible_forms rest hrest⟩

theorem FnDecl.legible_form : (decl : FnDecl) → AllNodesLegible decl.nodes → decl.form.Legible
  | ⟨_, _, _, _, body, _⟩, h => by
      obtain ⟨hdecl, hbody⟩ := allNodesLegible_cons.mp h
      refine Form.legible_list (by decide) (List.forall_mem_cons.mpr
        ⟨Form.legible_plain hdecl.name.isFormWord, List.forall_mem_cons.mpr ⟨?_, ?_⟩⟩)
      · exact hdecl.params_form
      · exact Stmt.legible_forms body hbody

theorem Stmt.legible_form : (stmt : Stmt) → AllNodesLegible stmt.nodes → stmt.form.Legible
  | .expression expr, h => expr.legible_form (allNodesLegible_cons.mp h).2
  | .binding name declared none _, h => by
      obtain ⟨⟨hname, hdeclared⟩, -⟩ := allNodesLegible_cons.mp h
      have hbinding : (Form.word name declared).Legible := ⟨hname.isFormWord, hdeclared⟩
      exact Form.legible_list (by decide) (by simp [hbinding])
  | .binding name declared (some init) _, h => by
      obtain ⟨⟨hname, hdeclared⟩, hinit⟩ := allNodesLegible_cons.mp h
      have hbinding : (Form.word name declared).Legible := ⟨hname.isFormWord, hdeclared⟩
      exact Form.legible_list (by decide) (by simp [hbinding, init.legible_form hinit])
  | .block block, h => block.legible_form (allNodesLegible_cons.mp h).2
  | .conditional condition thenBlock none _, h => by
      obtain ⟨-, hparts⟩ := allNodesLegible_cons.mp h
      obtain ⟨hcondition, hthen⟩ := allNodesLegible_append.mp hparts
      exact Form.legible_list (by decide)
        (by simp [condition.legible_form hcondition, thenBlock.legible_form hthen])
  | .conditional condition thenBlock (some otherwise) _, h => by
      obtain ⟨-, hparts⟩ := allNodesLegible_cons.mp h
      obtain ⟨hcondition, hblocks⟩ := allNodesLegible_append.mp hparts
      obtain ⟨hthen, hotherwise⟩ := allNodesLegible_append.mp hblocks
      exact Form.legible_list (by decide) (by simp [condition.legible_form hcondition,
        thenBlock.legible_form hthen, otherwise.legible_form hotherwise])
  | .loop condition body _, h => by
      obtain ⟨-, hparts⟩ := allNodesLegible_cons.mp h
      obtain ⟨hcondition, hbody⟩ := allNodesLegible_append.mp hparts
      exact Form.legible_list (by decide)
        (by simp [condition.legible_form hcondition, body.legible_form hbody])
  | .function decl, h => decl.legible_form (allNodesLegible_cons.mp h).2
  | .ret none _, _ => Form.legible_list (by decide) (by simp)
  | .ret (some value) _, h => by
      obtain ⟨-, hvalue⟩ := allNodesLegible_cons.mp h
      exact Form.legible_list (by decide) (by simp [value.legible_form hvalue])

theorem Stmt.legible_forms : (stmts : List Stmt) → AllNodesLegible (Stmt.allNodes stmts) →
    ∀ form ∈ Stmt.forms stmts, form.Legible
  | [], _ => by simp [Stmt.forms]
  | stmt :: rest, h => by
      obtain ⟨hstmt, hrest⟩ := allNodesLegible_append.mp h
      exact List.forall_mem_cons.mpr ⟨stmt.legible_form hstmt, Stmt.legible_forms rest hrest⟩

theorem Block.legible_form : (block : Block) → AllNodesLegible block.nodes → block.form.Legible
  | ⟨statements, _⟩, h => Form.legible_list (by decide) (Stmt.legible_forms statements h)

end

end Forms

end Scriptlet
