import Scriptlet.Proofs.Grammar.Symbols
import Scriptlet.Proofs.Tree

/-! Every node of a tree is written out within the tree, and so are its annotations. -/

namespace Scriptlet

def Node.symbols : Node → List Symbol
  | .expr e => e.symbols
  | .stmt s => s.symbols
  | .fn decl => decl.symbols

def WrittenIn (symbols : List Symbol) (nodes : List Node) : Prop :=
  ∀ node ∈ nodes, node.symbols ⊆ symbols

section WrittenIn

variable {symbols more : List Symbol} {node : Node} {nodes first second : List Node}

@[simp] theorem writtenIn_nil : WrittenIn symbols [] := by simp [WrittenIn]

@[simp] theorem writtenIn_cons : WrittenIn symbols (node :: nodes) ↔
    node.symbols ⊆ symbols ∧ WrittenIn symbols nodes := by
  simp [WrittenIn]

@[simp] theorem writtenIn_append :
    WrittenIn symbols (first ++ second) ↔ WrittenIn symbols first ∧ WrittenIn symbols second :=
  List.forall_mem_append

theorem WrittenIn.mono (h : WrittenIn symbols nodes) (hsubset : symbols ⊆ more) :
    WrittenIn more nodes :=
  fun node hmem _ hsymbol => hsubset (h node hmem hsymbol)

theorem WrittenIn.whole (hnode : node.symbols = symbols) (h : WrittenIn symbols nodes) :
    WrittenIn symbols (node :: nodes) :=
  writtenIn_cons.mpr ⟨hnode ▸ List.Subset.refl _, h⟩

end WrittenIn

theorem Symbol.mem_separated {pieces : List (List Symbol)} {piece : List Symbol} {symbol : Symbol}
    (hpiece : piece ∈ pieces) (h : symbol ∈ piece) : symbol ∈ separated pieces := by
  induction pieces using separated.induct with
  | case1 => cases hpiece
  | case2 only =>
      obtain rfl := List.mem_singleton.mp hpiece
      exact h
  | case3 only next rest ih =>
      rcases List.mem_cons.mp hpiece with rfl | hrest
      · exact List.mem_append_left _ h
      · exact List.mem_append_right _ (List.mem_cons_of_mem _ (ih hrest))

theorem Symbol.mem_listed {pieces : List (List Symbol)} {piece : List Symbol} {symbol : Symbol}
    (hpiece : piece ∈ pieces) (h : symbol ∈ piece) : symbol ∈ listed pieces := by
  simp [listed, mem_separated hpiece h]

theorem Symbol.mem_after {α : Type} {symbols : α → List Symbol} {mark : Kind} {symbol : Symbol}
    {item : Option α} {a : α} (ha : a ∈ item) (h : symbol ∈ symbols a) :
    symbol ∈ Symbol.after mark (item.map symbols) := by
  obtain rfl : item = some a := ha
  simp [after, h]

mutual

theorem Expr.writtenIn : (expr : Expr) → WrittenIn expr.symbols expr.nodes
  | .literal .. | .variable .. => WrittenIn.whole rfl writtenIn_nil
  | .assign _ value _ =>
      WrittenIn.whole rfl (value.writtenIn.mono fun _ h => by simp [Expr.symbols, h])
  | .group inner _ =>
      WrittenIn.whole rfl (inner.writtenIn.mono fun _ h => by simp [Expr.symbols, h])
  | .unary _ operand _ =>
      WrittenIn.whole rfl (operand.writtenIn.mono fun _ h => by simp [Expr.symbols, h])
  | .binary _ left right _ =>
      WrittenIn.whole rfl (writtenIn_append.mpr
        ⟨left.writtenIn.mono fun _ h => by simp [Expr.symbols, h],
          right.writtenIn.mono fun _ h => by simp [Expr.symbols, h]⟩)
  | .call callee args _ => by
      refine WrittenIn.whole rfl (writtenIn_append.mpr
        ⟨callee.writtenIn.mono fun _ h => by simp [Expr.symbols, h], ?_⟩)
      refine Expr.allWrittenIn args fun piece hpiece symbol hmem => ?_
      exact List.mem_append_right _ (Symbol.mem_listed hpiece hmem)
  | .function decl _ => WrittenIn.whole rfl decl.writtenIn

theorem Expr.allWrittenIn {symbols : List Symbol} : (exprs : List Expr) →
    (∀ piece ∈ Expr.allSymbols exprs, piece ⊆ symbols) → WrittenIn symbols (Expr.allNodes exprs)
  | [], _ => writtenIn_nil
  | expr :: rest, h => by
      obtain ⟨hexpr, hrest⟩ := List.forall_mem_cons.mp h
      exact writtenIn_append.mpr ⟨expr.writtenIn.mono hexpr, Expr.allWrittenIn rest hrest⟩

theorem FnDecl.writtenIn : (decl : FnDecl) → WrittenIn decl.symbols decl.nodes
  | ⟨name, anonymous, params, result, body, mark⟩ =>
      WrittenIn.whole rfl ((Stmt.allWrittenIn body).mono fun _ h => by
        simp [FnDecl.symbols, Symbol.braced, h])

theorem Stmt.writtenIn : (stmt : Stmt) → WrittenIn stmt.symbols stmt.nodes
  | .expression expr => WrittenIn.whole rfl expr.writtenIn
  | .binding _ _ none _ | .ret none _ => WrittenIn.whole rfl writtenIn_nil
  | .binding name _ (some init) _ =>
      WrittenIn.whole rfl (init.writtenIn.mono fun _ h => by
        simp [Stmt.symbols, Expr.symbols?, Symbol.after, h])
  | .block block => WrittenIn.whole rfl block.writtenIn
  | .conditional condition thenBlock none _ =>
      WrittenIn.whole rfl (writtenIn_append.mpr
        ⟨condition.writtenIn.mono fun _ h => by simp [Stmt.symbols, h],
          thenBlock.writtenIn.mono fun _ h => by simp [Stmt.symbols, h]⟩)
  | .conditional condition thenBlock (some otherwise) _ =>
      WrittenIn.whole rfl (writtenIn_append.mpr
        ⟨condition.writtenIn.mono fun _ h => by simp [Stmt.symbols, h],
          writtenIn_append.mpr
            ⟨thenBlock.writtenIn.mono fun _ h => by simp [Stmt.symbols, h],
              otherwise.writtenIn.mono fun _ h => by
                simp [Stmt.symbols, Stmt.symbols?, Symbol.after, h]⟩⟩)
  | .loop condition body _ =>
      WrittenIn.whole rfl (writtenIn_append.mpr
        ⟨condition.writtenIn.mono fun _ h => by simp [Stmt.symbols, h],
          body.writtenIn.mono fun _ h => by simp [Stmt.symbols, h]⟩)
  | .function decl => WrittenIn.whole rfl decl.writtenIn
  | .ret (some value) _ =>
      WrittenIn.whole rfl (value.writtenIn.mono fun _ h => by
        simp [Stmt.symbols, Expr.symbols?, h])

theorem Stmt.allWrittenIn : (stmts : List Stmt) →
    WrittenIn (Stmt.allSymbols stmts) (Stmt.allNodes stmts)
  | [] => writtenIn_nil
  | stmt :: rest => writtenIn_append.mpr
      ⟨stmt.writtenIn.mono fun _ h => by simp [Stmt.allSymbols, h],
        (Stmt.allWrittenIn rest).mono fun _ h => by simp [Stmt.allSymbols, h]⟩

theorem Block.writtenIn : (block : Block) → WrittenIn block.symbols block.nodes
  | ⟨statements, _⟩ => (Stmt.allWrittenIn statements).mono fun _ h => by
      simp [Block.symbols, Symbol.braced, h]

end

def Node.annotations : Node → List TypeExpr
  | .stmt (.binding _ declared _ _) => declared.toList
  | .fn decl => decl.params.filterMap Param.declared ++ decl.result.toList
  | _ => []

theorem Node.annotations_written (node : Node) :
    ∀ written ∈ node.annotations, ∀ symbol ∈ written.symbols, symbol ∈ node.symbols := by
  intro written hwritten symbol hsymbol
  cases node with
  | expr e => cases hwritten
  | stmt s =>
      cases s with
      | binding name declared init mark =>
          have hmem : symbol ∈ Symbol.after .colon (declared.map TypeExpr.symbols) :=
            Symbol.mem_after (Option.mem_toList.mp hwritten) hsymbol
          simp [symbols, Stmt.symbols, hmem]
      | _ => cases hwritten
  | fn decl =>
      obtain ⟨name, anonymous, params, result, body, mark⟩ := decl
      rcases List.mem_append.mp hwritten with hparam | hresult
      · obtain ⟨param, hlisted, hdeclared⟩ := List.mem_filterMap.mp hparam
        have hparam : symbol ∈ param.symbols :=
          List.mem_cons_of_mem _ (Symbol.mem_after hdeclared hsymbol)
        have hmem := Symbol.mem_listed (List.mem_map_of_mem hlisted) hparam
        simp [symbols, FnDecl.symbols, hmem]
      · have hmem : symbol ∈ Symbol.after .arrow (result.map TypeExpr.symbols) :=
          Symbol.mem_after (Option.mem_toList.mp hresult) hsymbol
        simp [symbols, FnDecl.symbols, hmem]

end Scriptlet
