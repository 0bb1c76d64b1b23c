import Scriptlet.Syntax

/-! Trees with other labels. Labels are the spans, the slots and the made-up names of functions
that have none of their own; everything else stays. -/

namespace Scriptlet

/-- What becomes of each kind of label. -/
structure Relabel where
  span : Span → Span
  slot : Option Ty → Option Ty
  unnamed : String → String

namespace Relabel

def mark (change : Relabel) (mark : Mark) : Mark := ⟨change.span mark.span, change.slot mark.ty⟩

def name (change : Relabel) (anonymous : Bool) (name : String) : String :=
  if anonymous then change.unnamed name else name

def bare : Relabel := ⟨fun _ => ⟨0, 0, 0⟩, fun _ => none, fun _ => ""⟩

def unchanged : Relabel := ⟨id, id, id⟩

end Relabel

section Relabel

variable (change : Relabel)

mutual

def TypeExpr.relabel : TypeExpr → TypeExpr
  | .named name span => .named name (change.span span)
  | .function params result span =>
      .function (TypeExpr.relabelAll params) (TypeExpr.relabel? result) (change.span span)

def TypeExpr.relabelAll : List TypeExpr → List TypeExpr
  | [] => []
  | written :: rest => written.relabel :: TypeExpr.relabelAll rest

def TypeExpr.relabel? : Option TypeExpr → Option TypeExpr
  | none => none
  | some written => some written.relabel

end

def Param.relabel (param : Param) : Param :=
  ⟨param.name, param.declared.map (·.relabel change), change.span param.span⟩

mutual

def Expr.relabel : Expr → Expr
  | .literal value mark => .literal value (change.mark mark)
  | .variable name mark => .variable name (change.mark mark)
  | .assign name value mark => .assign name value.relabel (change.mark mark)
  | .group inner mark => .group inner.relabel (change.mark mark)
  | .unary op operand mark => .unary op operand.relabel (change.mark mark)
  | .binary op left right mark => .binary op left.relabel right.relabel (change.mark mark)
  | .call callee args mark => .call callee.relabel (Expr.relabelAll args) (change.mark mark)
  | .function decl mark => .function decl.relabel (change.mark mark)

def Expr.relabelAll : List Expr → List Expr
  | [] => []
  | expr :: rest => expr.relabel :: Expr.relabelAll rest

def Expr.relabel? : Option Expr → Option Expr
  | none => none
  | some expr => some expr.relabel

def FnDecl.relabel : FnDecl → FnDecl
  | ⟨name, anonymous, params, result, body, mark⟩ =>
      ⟨change.name anonymous name, anonymous, params.map (Param.relabel change),
        result.map (TypeExpr.relabel change), Stmt.relabelAll body, change.mark mark⟩

def Stmt.relabel : Stmt → Stmt
  | .expression expr => .expression expr.relabel
  | .binding name declared init mark =>
      .binding name (declared.map (TypeExpr.relabel change)) (Expr.relabel? init)
        (change.mark mark)
  | .block block => .block block.relabel
  | .conditional condition thenBlock otherwise span =>
      .conditional condition.relabel thenBlock.relabel (Stmt.relabel? otherwise)
        (change.span span)
  | .loop condition body span => .loop condition.relabel body.relabel (change.span span)
  | .function decl => .function decl.relabel
  | .ret value span => .ret (Expr.relabel? value) (change.span span)

def Stmt.relabelAll : List Stmt → List Stmt
  | [] => []
  | stmt :: rest => stmt.relabel :: Stmt.relabelAll rest

def Stmt.relabel? : Option Stmt → Option Stmt
  | none => none
  | some stmt => some stmt.relabel

def Block.relabel : Block → Block
  | ⟨statements, span⟩ => ⟨Stmt.relabelAll statements, change.span span⟩

end

variable {change}

@[simp] theorem TypeExpr.relabelAll_eq_map (written : List TypeExpr) :
    relabelAll change written = written.map (relabel change) := by
  induction written with
  | nil => rfl
  | cons first rest ih => simp [relabelAll, ih]

@[simp] theorem TypeExpr.relabel?_eq_map (written : Option TypeExpr) :
    relabel? change written = written.map (relabel change) := by
  cases written <;> rfl

@[simp] theorem Expr.relabelAll_eq_map (exprs : List Expr) :
    relabelAll change exprs = exprs.map (relabel change) := by
  induction exprs with
  | nil => rfl
  | cons expr rest ih => simp [relabelAll, ih]

@[simp] theorem Expr.relabel?_eq_map (expr : Option Expr) :
    relabel? change expr = expr.map (relabel change) := by
  cases expr <;> rfl

@[simp] theorem Stmt.relabelAll_eq_map (stmts : List Stmt) :
    relabelAll change stmts = stmts.map (relabel change) := by
  induction stmts with
  | nil => rfl
  | cons stmt rest ih => simp [relabelAll, ih]

@[simp] theorem Stmt.relabel?_eq_map (stmt : Option Stmt) :
    relabel? change stmt = stmt.map (relabel change) := by
  cases stmt <;> rfl

@[simp] theorem Expr.mark_relabel (expr : Expr) :
    (expr.relabel change).mark = change.mark expr.mark := by
  cases expr <;> rfl

@[simp] theorem Expr.span_relabel (expr : Expr) :
    (expr.relabel change).span = change.span expr.span := by
  simp [span, Relabel.mark]

@[simp] theorem FnDecl.span_relabel (decl : FnDecl) :
    (decl.relabel change).mark.span = change.span decl.mark.span := by
  cases decl
  rfl

@[simp] theorem Block.span_relabel (block : Block) :
    (block.relabel change).span = change.span block.span := by
  cases block
  rfl

theorem Block.statements_relabel (block : Block) :
    (block.relabel change).statements = block.statements.map (Stmt.relabel change) := by
  cases block
  simp [relabel]

variable (change)

def Program.relabel (program : Program) : Program :=
  ⟨program.statements.map (Stmt.relabel change)⟩

end Relabel

end Scriptlet
