import Mathlib.Data.List.Forall2
import Scriptlet.Syntax

/-! Programs that declare functions otherwise. A statement that declares a function by its name can
be restated as one that binds the name to a function literal; the tree around it stays as it is, and
so does the body, but for functions declared in it. Places in the source may move, and what is said
of them is only which may stand for which. -/

namespace Scriptlet

mutual

/-- The same expression, with some functions in it restated. -/
inductive Expr.Restated (places : Span → Span → Prop) : Expr → Expr → Prop
  | literal {value : Literal} {mark mark' : Mark} :
      Expr.Restated places (.literal value mark) (.literal value mark')
  | variable {name : String} {mark mark' : Mark} (hplaces : places mark.span mark'.span) :
      Expr.Restated places (.variable name mark) (.variable name mark')
  | assign {name : String} {value value' : Expr} {mark mark' : Mark}
      (hvalue : value.Restated places value') (hplaces : places mark.span mark'.span) :
      Expr.Restated places (.assign name value mark) (.assign name value' mark')
  | group {inner inner' : Expr} {mark mark' : Mark} (hinner : inner.Restated places inner') :
      Expr.Restated places (.group inner mark) (.group inner' mark')
  | unary {op : UnaryOp} {operand operand' : Expr} {mark mark' : Mark}
      (hoperand : operand.Restated places operand') (hplaces : places mark.span mark'.span) :
      Expr.Restated places (.unary op operand mark) (.unary op operand' mark')
  | binary {op : BinaryOp} {left left' right right' : Expr} {mark mark' : Mark}
      (hleft : left.Restated places left') (hright : right.Restated places right')
      (hplaces : places mark.span mark'.span) :
      Expr.Restated places (.binary op left right mark) (.binary op left' right' mark')
  | call {callee callee' : Expr} {args args' : List Expr} {mark mark' : Mark}
      (hcallee : callee.Restated places callee')
      (hargs : List.Forall₂ (Expr.Restated places) args args')
      (hplaces : places mark.span mark'.span) :
      Expr.Restated places (.call callee args mark) (.call callee' args' mark')
  | function {decl decl' : FnDecl} {mark mark' : Mark} (hdecl : decl.Restated places decl') :
      Expr.Restated places (.function decl mark) (.function decl' mark')

/-- A function of the same name, with some functions in it restated. -/
inductive FnDecl.Restated (places : Span → Span → Prop) : FnDecl → FnDecl → Prop
  | intro {decl decl' : FnDecl} (hname : decl.name = decl'.name)
      (hanonymous : decl.anonymous = decl'.anonymous)
      (hparams : decl.params.map Param.name = decl'.params.map Param.name)
      (hbody : List.Forall₂ (Stmt.Restated places) decl.body decl'.body) :
      FnDecl.Restated places decl decl'

/-- The same statement, with some functions in it restated, or itself if it declares one. -/
inductive Stmt.Restated (places : Span → Span → Prop) : Stmt → Stmt → Prop
  | expression {expr expr' : Expr} (hexpr : expr.Restated places expr') :
      Stmt.Restated places (.expression expr) (.expression expr')
  | binding {name : String} {declared declared' : Option TypeExpr} {init init' : Option Expr}
      {mark mark' : Mark} (hinit : Option.Rel (Expr.Restated places) init init') :
      Stmt.Restated places (.binding name declared init mark) (.binding name declared' init' mark')
  | block {block block' : Block}
      (hblock : List.Forall₂ (Stmt.Restated places) block.statements block'.statements) :
      Stmt.Restated places (.block block) (.block block')
  | conditional {condition condition' : Expr} {thenBlock thenBlock' : Block}
      {otherwise otherwise' : Option Stmt} {span span' : Span}
      (hcondition : condition.Restated places condition')
      (hthen : List.Forall₂ (Stmt.Restated places) thenBlock.statements thenBlock'.statements)
      (hotherwise : Option.Rel (Stmt.Restated places) otherwise otherwise') :
      Stmt.Restated places (.conditional condition thenBlock otherwise span)
        (.conditional condition' thenBlock' otherwise' span')
  | loop {condition condition' : Expr} {body body' : Block} {span span' : Span}
      (hcondition : condition.Restated places condition')
      (hbody : List.Forall₂ (Stmt.Restated places) body.statements body'.statements) :
      Stmt.Restated places (.loop condition body span) (.loop condition' body' span')
  | function {decl decl' : FnDecl} (hdecl : decl.Restated places decl') :
      Stmt.Restated places (.function decl) (.function decl')
  | ret {value value' : Option Expr} {span span' : Span}
      (hvalue : Option.Rel (Expr.Restated places) value value') :
      Stmt.Restated places (.ret value span) (.ret value' span')
  /-- The literal has a made-up name, which may be any. -/
  | restated {decl literal : FnDecl} {slot mark : Mark} (hnamed : decl.anonymous = false)
      (hliteral : literal.anonymous = true)
      (hparams : decl.params.map Param.name = literal.params.map Param.name)
      (hbody : List.Forall₂ (Stmt.Restated places) decl.body literal.body) :
      Stmt.Restated places (.function decl)
        (.binding decl.name none (some (.function literal slot)) mark)

end

section Itself

variable {places : Span → Span → Prop}

mutual

theorem Expr.restated_refl (hplaces : ∀ span, places span span) (expr : Expr) :
    expr.Restated places expr := by
  cases expr with
  | literal => exact .literal
  | «variable» => exact .variable (hplaces _)
  | assign _ value => exact .assign (value.restated_refl hplaces) (hplaces _)
  | group inner => exact .group (inner.restated_refl hplaces)
  | unary _ operand => exact .unary (operand.restated_refl hplaces) (hplaces _)
  | binary _ left right =>
      exact .binary (left.restated_refl hplaces) (right.restated_refl hplaces) (hplaces _)
  | call callee args =>
      exact .call (callee.restated_refl hplaces) (Expr.restated_refl_all hplaces args) (hplaces _)
  | function decl => exact .function (decl.restated_refl hplaces)

theorem Expr.restated_refl_all (hplaces : ∀ span, places span span) (exprs : List Expr) :
    List.Forall₂ (Expr.Restated places) exprs exprs := by
  cases exprs with
  | nil => exact .nil
  | cons expr rest =>
      exact .cons (expr.restated_refl hplaces) (Expr.restated_refl_all hplaces rest)

theorem FnDecl.restated_refl (hplaces : ∀ span, places span span) (decl : FnDecl) :
    decl.Restated places decl := by
  cases decl with
  | mk name anonymous params result body =>
      exact .intro rfl rfl rfl (Stmt.restated_refl_all hplaces body)

theorem Stmt.restated_refl (hplaces : ∀ span, places span span) (stmt : Stmt) :
    stmt.Restated places stmt := by
  cases stmt with
  | expression expr => exact .expression (expr.restated_refl hplaces)
  | binding _ _ init =>
      cases init with
      | none => exact .binding .none
      | some init => exact .binding (.some (init.restated_refl hplaces))
  | block block =>
      cases block with
      | mk statements => exact .block (Stmt.restated_refl_all hplaces statements)
  | conditional condition thenBlock otherwise =>
      have hcondition := condition.restated_refl hplaces
      cases thenBlock with
      | mk statements =>
          have hthen := Stmt.restated_refl_all hplaces statements
          cases otherwise with
          | none => exact .conditional hcondition hthen .none
          | some stmt => exact .conditional hcondition hthen (.some (stmt.restated_refl hplaces))
  | loop condition body =>
      cases body with
      | mk statements =>
          exact .loop (condition.restated_refl hplaces) (Stmt.restated_refl_all hplaces statements)
  | function decl => exact .function (decl.restated_refl hplaces)
  | ret value =>
      cases value with
      | none => exact .ret .none
      | some value => exact .ret (.some (value.restated_refl hplaces))

theorem Stmt.restated_refl_all (hplaces : ∀ span, places span span) (stmts : List Stmt) :
    List.Forall₂ (Stmt.Restated places) stmts stmts := by
  cases stmts with
  | nil => exact .nil
  | cons stmt rest =>
      exact .cons (stmt.restated_refl hplaces) (Stmt.restated_refl_all hplaces rest)

end

end Itself

theorem FnDecl.Restated.name_eq {places : Span → Span → Prop} {decl decl' : FnDecl}
    (h : decl.Restated places decl') : decl.name = decl'.name := by
  cases h
  assumption

/-- Binds the name of a function to a literal that has a made-up name. -/
def FnDecl.bound (decl : FnDecl) (unnamed : String) : Stmt :=
  .binding decl.name none
    (some (.function { decl with name := unnamed, anonymous := true } decl.mark)) decl.mark

theorem FnDecl.restated_bound {places : Span → Span → Prop} (hplaces : ∀ span, places span span)
    {decl : FnDecl} (hnamed : decl.anonymous = false) (unnamed : String) :
    (Stmt.function decl).Restated places (decl.bound unnamed) :=
  .restated hnamed rfl rfl (Stmt.restated_refl_all hplaces decl.body)

def Program.Restated (places : Span → Span → Prop) (program program' : Program) : Prop :=
  List.Forall₂ (Stmt.Restated places) program.statements program'.statements

end Scriptlet
