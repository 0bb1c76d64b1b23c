import Scriptlet.Proofs.Grammar.Spelled
import Scriptlet.Proofs.Tree

/-! The nodes of a tree that is spelled are spelled themselves, each by the tokens between some two
cursors. So whatever the rules say of one node holds of every node. -/

namespace Scriptlet

section Items

variable {α : Type} {item : α → Cursor → Cursor → Prop} {items : List α} {before after : Cursor}

theorem Listed.forall_mem (h : Listed item items before after) :
    ∀ a ∈ items, ∃ first last, item a first last := by
  induction h with
  | nil => simp
  | one hitem => simpa using ⟨_, _, hitem⟩
  | more hitem _ _ ih => exact List.forall_mem_cons.mpr ⟨⟨_, _, hitem⟩, ih⟩

theorem Sequence.forall_mem (h : Sequence item items before after) :
    ∀ a ∈ items, ∃ first last, item a first last := by
  induction h with
  | nil => simp
  | cons hitem _ ih => exact List.forall_mem_cons.mpr ⟨⟨_, _, hitem⟩, ih⟩

theorem Behind.forall_mem {mark : Kind} {value : Option α}
    (h : Behind mark item value before after) : ∀ a ∈ value, ∃ first last, item a first last := by
  cases h with
  | absent => simp
  | present _ hitem => simpa using ⟨_, _, hitem⟩

end Items

def Node.IsSpelled : Node → Prop
  | .expr e => ∃ before after, e.Spelled before after
  | .stmt s => ∃ before after, s.Spelled before after
  | .fn decl => ∃ start before after, decl.Spelled start before after

def AllSpelled (nodes : List Node) : Prop := ∀ node ∈ nodes, node.IsSpelled

section AllSpelled

variable {node : Node} {nodes first second : List Node}

@[simp] theorem allSpelled_nil : AllSpelled [] := by simp [AllSpelled]

@[simp] theorem allSpelled_cons :
    AllSpelled (node :: nodes) ↔ node.IsSpelled ∧ AllSpelled nodes := List.forall_mem_cons

@[simp] theorem allSpelled_append :
    AllSpelled (first ++ second) ↔ AllSpelled first ∧ AllSpelled second := List.forall_mem_append

end AllSpelled

mutual

theorem Expr.Spelled.nodes : (expr : Expr) → {before after : Cursor} →
    expr.Spelled before after → AllSpelled expr.nodes
  | .literal .., _, _, h | .variable .., _, _, h => allSpelled_cons.mpr ⟨⟨_, _, h⟩, allSpelled_nil⟩
  | .assign _ value _, _, _, h => by
      refine allSpelled_cons.mpr ⟨⟨_, _, h⟩, ?_⟩
      cases h with
      | assign _ _ hvalue => exact Expr.Spelled.nodes value hvalue
  | .group inner _, _, _, h => by
      refine allSpelled_cons.mpr ⟨⟨_, _, h⟩, ?_⟩
      cases h with
      | group _ hinner => exact Expr.Spelled.nodes inner hinner
  | .unary _ operand _, _, _, h => by
      refine allSpelled_cons.mpr ⟨⟨_, _, h⟩, ?_⟩
      cases h with
      | unary _ hoperand => exact Expr.Spelled.nodes operand hoperand
  | .binary _ left right _, _, _, h => by
      refine allSpelled_cons.mpr ⟨⟨_, _, h⟩, ?_⟩
      cases h with
      | binary hleft _ hright =>
          exact allSpelled_append.mpr
            ⟨Expr.Spelled.nodes left hleft, Expr.Spelled.nodes right hright⟩
  | .call callee args _, _, _, h => by
      refine allSpelled_cons.mpr ⟨⟨_, _, h⟩, ?_⟩
      cases h with
      | call hcallee _ hargs =>
          exact allSpelled_append.mpr
            ⟨Expr.Spelled.nodes callee hcallee, Expr.Spelled.allNodes args hargs.forall_mem⟩
  | .function decl _, _, _, h => by
      refine allSpelled_cons.mpr ⟨⟨_, _, h⟩, ?_⟩
      cases h with
      | function _ hdecl => exact FnDecl.Spelled.nodes decl hdecl

theorem Expr.Spelled.allNodes : (exprs : List Expr) →
    (∀ expr ∈ exprs, ∃ before after, expr.Spelled before after) → AllSpelled (Expr.allNodes exprs)
  | [], _ => allSpelled_nil
  | expr :: rest, h => by
      obtain ⟨⟨_, _, hexpr⟩, hrest⟩ := List.forall_mem_cons.mp h
      exact allSpelled_append.mpr ⟨Expr.Spelled.nodes expr hexpr, Expr.Spelled.allNodes rest hrest⟩

theorem FnDecl.Spelled.nodes : (decl : FnDecl) → {start : Span} → {before after : Cursor} →
    decl.Spelled start before after → AllSpelled decl.nodes
  | ⟨_, _, _, _, body, _⟩, _, _, _, h => by
      refine allSpelled_cons.mpr ⟨⟨_, _, _, h⟩, ?_⟩
      cases h with
      | intro _ _ _ _ _ hbody _ =>
          cases hbody with
          | intro _ hstatements _ => exact Stmt.Spelled.allNodes _ hstatements.forall_mem

theorem Stmt.Spelled.nodes : (stmt : Stmt) → {before after : Cursor} →
    stmt.Spelled before after → AllSpelled stmt.nodes
  | .expression expr, _, _, h => by
      refine allSpelled_cons.mpr ⟨⟨_, _, h⟩, ?_⟩
      cases h with
      | expression hexpr => exact Expr.Spelled.nodes expr hexpr
  | .binding _ _ none _, _, _, h | .ret none _, _, _, h =>
      allSpelled_cons.mpr ⟨⟨_, _, h⟩, allSpelled_nil⟩
  | .binding _ _ (some init) _, _, _, h => by
      refine allSpelled_cons.mpr ⟨⟨_, _, h⟩, ?_⟩
      cases h with
      | binding _ _ _ hinit =>
          obtain ⟨_, _, hinit⟩ := hinit.forall_mem init rfl
          exact Expr.Spelled.nodes init hinit
  | .block block, _, _, h => by
      refine allSpelled_cons.mpr ⟨⟨_, _, h⟩, ?_⟩
      cases h with
      | block hblock => exact Block.Spelled.nodes block hblock
  | .conditional condition thenBlock none _, _, _, h => by
      refine allSpelled_cons.mpr ⟨⟨_, _, h⟩, ?_⟩
      cases h with
      | conditional _ hcondition hthen =>
          exact allSpelled_append.mpr
            ⟨Expr.Spelled.nodes condition hcondition, Block.Spelled.nodes thenBlock hthen⟩
  | .conditional condition thenBlock (some otherwise) _, _, _, h => by
      refine allSpelled_cons.mpr ⟨⟨_, _, h⟩, ?_⟩
      cases h with
      | conditional _ hcondition hthen hotherwise =>
          obtain ⟨_, _, hotherwise⟩ := hotherwise.forall_mem otherwise rfl
          exact allSpelled_append.mpr ⟨Expr.Spelled.nodes condition hcondition,
            allSpelled_append.mpr
              ⟨Block.Spelled.nodes thenBlock hthen, Stmt.Spelled.nodes otherwise hotherwise⟩⟩
  | .loop condition body _, _, _, h => by
      refine allSpelled_cons.mpr ⟨⟨_, _, h⟩, ?_⟩
      cases h with
      | loop _ hcondition hbody =>
          exact allSpelled_append.mpr
            ⟨Expr.Spelled.nodes condition hcondition, Block.Spelled.nodes body hbody⟩
  | .function decl, _, _, h => by
      refine allSpelled_cons.mpr ⟨⟨_, _, h⟩, ?_⟩
      cases h with
      | function _ hdecl => exact FnDecl.Spelled.nodes decl hdecl
  | .ret (some value) _, _, _, h => by
      refine allSpelled_cons.mpr ⟨⟨_, _, h⟩, ?_⟩
      cases h with
      | ret _ hvalue => exact Expr.Spelled.nodes value hvalue

theorem Stmt.Spelled.allNodes : (stmts : List Stmt) →
    (∀ stmt ∈ stmts, ∃ before after, stmt.Spelled before after) → AllSpelled (Stmt.allNodes stmts)
  | [], _ => allSpelled_nil
  | stmt :: rest, h => by
      obtain ⟨⟨_, _, hstmt⟩, hrest⟩ := List.forall_mem_cons.mp h
      exact allSpelled_append.mpr ⟨Stmt.Spelled.nodes stmt hstmt, Stmt.Spelled.allNodes rest hrest⟩

theorem Block.Spelled.nodes : (block : Block) → {before after : Cursor} →
    block.Spelled before after → AllSpelled block.nodes
  | ⟨statements, _⟩, _, _, h => by
      cases h with
      | intro _ hstatements _ => exact Stmt.Spelled.allNodes statements hstatements.forall_mem

end

end Scriptlet
