import Scriptlet.Proofs.Dump.Legible

/-! Trees read back from their forms, one construct after another. What is read has no places and no
types, and everything else is as it was written. -/

namespace Scriptlet

open Form

section Readers

variable {form : Form} {operands : List Form} {head : String}

@[simp] theorem Relabel.mark_placeless (mark : Mark) : placeless.mark mark = .empty := rfl

@[simp] theorem Relabel.span_placeless (span : Span) : placeless.span span = .nowhere := rfl

@[simp] theorem Relabel.name_placeless (anonymous : Bool) (name : String) :
    placeless.name anonymous name = name := by
  cases anonymous <;> rfl

namespace Form

@[simp] theorem placeless_plain (word : String) : (plain word).placeless = plain word := rfl

@[simp] theorem placeless_list (items : List Form) :
    (list items none).placeless = list (items.map placeless) none := by
  simp [placeless]

theorem expr?_of_atom? {expr : Expr} (h : form.atom? = some expr) : form.expr? = some expr := by
  cases form with
  | quoted | word => exact h
  | list => cases h

theorem stmt?_of_atom? {expr : Expr} (h : form.atom? = some expr) :
    form.stmt? = some (.expression expr) := by
  cases form with
  | quoted | word => simp [stmt?, h]
  | list => cases h

theorem expr?_list (h : head ≠ "fn") :
    (list (plain head :: operands) none).expr? = operation? head operands := by
  simp [expr?, plain, h]

theorem stmt?_list (h : head ∉ ["fn", "block", "let", "if", "while", "return"]) :
    (list (plain head :: operands) none).stmt? =
      (operation? head operands).map Stmt.expression := by
  simp only [List.mem_cons, List.not_mem_nil, or_false, not_or] at h
  obtain ⟨hfn, hblock, hlet, hif, hwhile, hreturn⟩ := h
  cases hoperation : operation? head operands <;>
    simp [stmt?, plain, hfn, hblock, hlet, hif, hwhile, hreturn, hoperation]

theorem operation?_unary (op : UnaryOp) {expr : Expr} (h : form.expr? = some expr) :
    operation? op.symbol [form] = some (.unary op expr .empty) := by
  cases op <;> simp [operation?, UnaryOp.symbol, UnaryOp.ofSymbol?, h]

theorem operation?_binary (op : BinaryOp) {left right : Expr} {other : Form}
    (h : form.expr? = some left) (h' : other.expr? = some right) :
    operation? op.symbol [form, other] = some (.binary op left right .empty) := by
  cases op <;> simp [operation?, BinaryOp.symbol, BinaryOp.ofSymbol?, h, h']

end Form

theorem BinaryOp.symbol_ne (op : BinaryOp) :
    op.symbol ∉ ["fn", "block", "let", "if", "while", "return"] := by
  cases op <;> decide

theorem UnaryOp.symbol_ne (op : UnaryOp) :
    op.symbol ∉ ["fn", "block", "let", "if", "while", "return"] := by
  cases op <;> decide

theorem Param.mapM_param? (params : List Param) :
    ((params.map Param.form).map placeless).mapM param? =
      some (params.map (Param.relabel .placeless)) := by
  induction params with
  | nil => rfl
  | cons param rest ih =>
      simp only [List.map_cons, List.mapM_cons, ih, Option.pure_def, Option.bind_eq_bind,
        Option.bind_some]
      rfl

end Readers

/-- What a form of an expression is read as, where an expression and where a statement stands. -/
structure Form.ReadsAs (form : Form) (expr : Expr) : Prop where
  asExpr : form.expr? = some expr
  asStmt : ¬expr.isFunction → form.stmt? = some (.expression expr)

theorem Form.readsAs_list {head : String} {operands : List Form} {expr : Expr}
    (hhead : head ∉ ["fn", "block", "let", "if", "while", "return"])
    (h : operation? head operands = some expr) :
    (list (plain head :: operands) none).ReadsAs expr := by
  have hne : head ≠ "fn" := fun heq => hhead (heq ▸ List.mem_cons_self)
  exact ⟨by rw [expr?_list hne, h], fun _ => by rw [stmt?_list hhead, h]; rfl⟩

mutual

theorem Expr.readsAs_form : (expr : Expr) → AllNodesLegible expr.nodes →
    expr.form.placeless.ReadsAs (expr.relabel .placeless)
  | .literal value _, h => by
      have hatom := Literal.atom?_form (h _ List.mem_cons_self)
      exact ⟨expr?_of_atom? hatom, fun _ => stmt?_of_atom? hatom⟩
  | .variable name _, h => by
      have hatom : (plain name).atom? = some (.variable name .empty) := by
        simp [plain, atom?, literal?_name (h _ List.mem_cons_self)]
      exact ⟨expr?_of_atom? hatom, fun _ => stmt?_of_atom? hatom⟩
  | .assign name value _, h => by
      have hvalue := (value.readsAs_form (allNodesLegible_cons.mp h).2).asExpr
      rw [Expr.form, placeless_list]
      exact readsAs_list (by decide) (by
        simp [operation?, plain, placeless, name?, hvalue, Expr.relabel])
  | .group inner _, h => by
      have hinner := (inner.readsAs_form (allNodesLegible_cons.mp h).2).asExpr
      rw [Expr.form, placeless_list]
      exact readsAs_list (by decide) (by simp [operation?, hinner, Expr.relabel])
  | .unary op operand _, h => by
      have hoperand := (operand.readsAs_form (allNodesLegible_cons.mp h).2).asExpr
      rw [Expr.form, placeless_list]
      exact readsAs_list op.symbol_ne (operation?_unary op hoperand)
  | .binary op left right _, h => by
      obtain ⟨hleft, hright⟩ := allNodesLegible_append.mp (allNodesLegible_cons.mp h).2
      rw [Expr.form, placeless_list]
      exact readsAs_list op.symbol_ne
        (operation?_binary op (left.readsAs_form hleft).asExpr (right.readsAs_form hright).asExpr)
  | .call callee args _, h => by
      obtain ⟨hcallee, hargs⟩ := allNodesLegible_append.mp (allNodesLegible_cons.mp h).2
      rw [Expr.form, placeless_list]
      exact readsAs_list (by decide) (by
        simp [operation?, (callee.readsAs_form hcallee).asExpr, Expr.exprs?_forms args hargs,
          Expr.relabel])
  | .function decl _, h => by
      obtain ⟨operands, hform, hread⟩ := decl.function?_form (allNodesLegible_cons.mp h).2
      refine ⟨?_, fun hnone => absurd rfl hnone⟩
      rw [Expr.form, hform]
      simp [expr?, plain, hread, Expr.relabel]

theorem Expr.exprs?_forms : (exprs : List Expr) → AllNodesLegible (Expr.allNodes exprs) →
    exprs? ((Expr.forms exprs).map placeless) = some (exprs.map (Expr.relabel .placeless))
  | [], _ => rfl
  | expr :: rest, h => by
      obtain ⟨hexpr, hrest⟩ := allNodesLegible_append.mp h
      simp [Expr.forms, exprs?, (expr.readsAs_form hexpr).asExpr, Expr.exprs?_forms rest hrest]

theorem FnDecl.function?_form : (decl : FnDecl) → AllNodesLegible decl.nodes →
    ∃ operands, decl.form.placeless = .list (plain "fn" :: operands) none ∧
      function? operands = some (decl.relabel .placeless)
  | ⟨name, anonymous, params, result, body, _⟩, h => by
      obtain ⟨hdecl, hbody⟩ := allNodesLegible_cons.mp h
      refine ⟨_, by rw [FnDecl.form, placeless_list, List.map_cons, placeless_plain], ?_⟩
      have hname : (name.toList.head? == some '<') = anonymous := hdecl.name.anonymous_eq
      simp only [List.map_cons, plain, placeless, allPlaceless_eq_map, function?,
        Param.mapM_param?, Stmt.stmts?_forms body hbody, hname]
      simp [FnDecl.relabel]

theorem Stmt.stmt?_form : (stmt : Stmt) → AllNodesLegible stmt.nodes →
    stmt.form.placeless.stmt? = some (stmt.relabel .placeless)
  | .expression expr, h => by
      obtain ⟨hexpr, hbelow⟩ := allNodesLegible_cons.mp h
      refine (expr.readsAs_form hbelow).asStmt fun hfunction => hexpr ?_
      cases expr <;> first | rfl | exact hfunction
  | .binding name declared none _, _ => by
      simp [Stmt.form, stmt?, binding?, plain, placeless, Stmt.relabel]
  | .binding name declared (some init) _, h => by
      have hinit := (init.readsAs_form (allNodesLegible_cons.mp h).2).asExpr
      simp [Stmt.form, stmt?, binding?, plain, placeless, hinit, Stmt.relabel]
  | .block block, h => by
      obtain ⟨statements, span⟩ := block
      simp [Stmt.form, Block.form, stmt?, plain, placeless, Stmt.relabel, Block.relabel,
        Stmt.stmts?_forms statements (allNodesLegible_cons.mp h).2]
  | .conditional condition thenBlock none _, h => by
      obtain ⟨hcondition, hthen⟩ := allNodesLegible_append.mp (allNodesLegible_cons.mp h).2
      simp [Stmt.form, stmt?, conditional?, plain, placeless,
        (condition.readsAs_form hcondition).asExpr, thenBlock.block?_form hthen, Stmt.relabel]
  | .conditional condition thenBlock (some otherwise) _, h => by
      obtain ⟨hcondition, hblocks⟩ := allNodesLegible_append.mp (allNodesLegible_cons.mp h).2
      obtain ⟨hthen, hotherwise⟩ := allNodesLegible_append.mp hblocks
      simp [Stmt.form, stmt?, conditional?, plain, placeless,
        (condition.readsAs_form hcondition).asExpr, thenBlock.block?_form hthen,
        otherwise.stmt?_form hotherwise, Stmt.relabel]
  | .loop condition body _, h => by
      obtain ⟨hcondition, hbody⟩ := allNodesLegible_append.mp (allNodesLegible_cons.mp h).2
      simp [Stmt.form, stmt?, loop?, plain, placeless, (condition.readsAs_form hcondition).asExpr,
        body.block?_form hbody, Stmt.relabel]
  | .function decl, h => by
      obtain ⟨operands, hform, hread⟩ := decl.function?_form (allNodesLegible_cons.mp h).2
      rw [Stmt.form, hform]
      simp [stmt?, plain, hread, Stmt.relabel]
  | .ret none _, _ => by simp [Stmt.form, stmt?, ret?, plain, placeless, Stmt.relabel]
  | .ret (some value) _, h => by
      have hvalue := (value.readsAs_form (allNodesLegible_cons.mp h).2).asExpr
      simp [Stmt.form, stmt?, ret?, plain, placeless, hvalue, Stmt.relabel]

theorem Stmt.stmts?_forms : (stmts : List Stmt) → AllNodesLegible (Stmt.allNodes stmts) →
    stmts? ((Stmt.forms stmts).map placeless) = some (stmts.map (Stmt.relabel .placeless))
  | [], _ => rfl
  | stmt :: rest, h => by
      obtain ⟨hstmt, hrest⟩ := allNodesLegible_append.mp h
      simp [Stmt.forms, stmts?, stmt.stmt?_form hstmt, Stmt.stmts?_forms rest hrest]

theorem Block.block?_form : (block : Block) → AllNodesLegible block.nodes →
    block.form.placeless.block? = some (block.relabel .placeless)
  | ⟨statements, _⟩, h => by
      simp [Block.form, block?, plain, placeless, Stmt.stmts?_forms statements h, Block.relabel]

end

end Scriptlet
