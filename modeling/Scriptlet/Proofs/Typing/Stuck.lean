import Scriptlet.Proofs.Typing.Rules
import Scriptlet.Proofs.Tree.Labels

/-! Trees on which a check stops. What is finished in front of the fault is typed, the node at
fault and the nodes around it have no type, and what comes behind is as it was read. Only the
slot of a function is filled before its body is finished. -/

namespace Scriptlet

mutual

inductive ExprStuck : Context → Expr → TypeError → Prop
  | undefined {context : Context} {name : String} {mark : Mark}
      (missing : context.types name = none) (slot : mark.ty = none) :
      ExprStuck context (.variable name mark) ⟨.undefined name, mark.span⟩
  | undeclared {context : Context} {name : String} {value : Expr} {mark : Mark}
      (missing : context.types name = none) (fresh : Fresh value.nodes)
      (slot : mark.ty = none) :
      ExprStuck context (.assign name value mark) ⟨.undeclaredTarget name, mark.span⟩
  | assigned {context : Context} {name : String} {target : Ty} {value : Expr} {mark : Mark}
      {e : TypeError} (found : context.types name = some target)
      (hvalue : ExprStuck context value e) (slot : mark.ty = none) :
      ExprStuck context (.assign name value mark) e
  | assignment {context : Context} {name : String} {target ty : Ty} {value : Expr} {mark : Mark}
      (found : context.types name = some target) (hvalue : HasType context value ty)
      (differs : ty ≠ target) (slot : mark.ty = none) :
      ExprStuck context (.assign name value mark) ⟨.assignment name target ty, mark.span⟩
  | group {context : Context} {inner : Expr} {mark : Mark} {e : TypeError}
      (hinner : ExprStuck context inner e) (slot : mark.ty = none) :
      ExprStuck context (.group inner mark) e
  | unary {context : Context} {op : UnaryOp} {operand : Expr} {mark : Mark} {e : TypeError}
      (hoperand : ExprStuck context operand e) (slot : mark.ty = none) :
      ExprStuck context (.unary op operand mark) e
  | operand {context : Context} {op : UnaryOp} {operand : Expr} {ty : Ty} {mark : Mark}
      (hoperand : HasType context operand ty) (refused : ∀ result, ¬op.Makes ty result)
      (slot : mark.ty = none) :
      ExprStuck context (.unary op operand mark) ⟨.unaryOperand op ty, mark.span⟩
  | left {context : Context} {op : BinaryOp} {left right : Expr} {mark : Mark} {e : TypeError}
      (hleft : ExprStuck context left e) (fresh : Fresh right.nodes) (slot : mark.ty = none) :
      ExprStuck context (.binary op left right mark) e
  | right {context : Context} {op : BinaryOp} {left right : Expr} {ty : Ty} {mark : Mark}
      {e : TypeError} (hleft : HasType context left ty) (hright : ExprStuck context right e)
      (slot : mark.ty = none) : ExprStuck context (.binary op left right mark) e
  | operands {context : Context} {op : BinaryOp} {left right : Expr} {leftTy rightTy : Ty}
      {mark : Mark} (hleft : HasType context left leftTy)
      (hright : HasType context right rightTy)
      (refused : ∀ result, ¬op.Makes leftTy rightTy result) (slot : mark.ty = none) :
      ExprStuck context (.binary op left right mark)
        ⟨.binaryOperands op leftTy rightTy, mark.span⟩
  | callee {context : Context} {callee : Expr} {args : List Expr} {mark : Mark} {e : TypeError}
      (hcallee : ExprStuck context callee e) (fresh : Fresh (Expr.allNodes args))
      (slot : mark.ty = none) : ExprStuck context (.call callee args mark) e
  | notCallable {context : Context} {callee : Expr} {args : List Expr} {ty : Ty} {mark : Mark}
      (hcallee : HasType context callee ty)
      (refused : ∀ params result, ty ≠ .function params result)
      (fresh : Fresh (Expr.allNodes args)) (slot : mark.ty = none) :
      ExprStuck context (.call callee args mark) ⟨.notCallable ty, callee.span⟩
  | arity {context : Context} {callee : Expr} {args : List Expr} {params : List Ty} {ty : Ty}
      {mark : Mark} (hcallee : HasType context callee (.function params ty))
      (differs : params.length ≠ args.length) (fresh : Fresh (Expr.allNodes args))
      (slot : mark.ty = none) :
      ExprStuck context (.call callee args mark) ⟨.arity params.length args.length, mark.span⟩
  | args {context : Context} {callee : Expr} {args : List Expr} {params : List Ty} {ty : Ty}
      {mark : Mark} {e : TypeError} (hcallee : HasType context callee (.function params ty))
      (agrees : params.length = args.length) (hargs : ArgsStuck context 1 args params e)
      (slot : mark.ty = none) : ExprStuck context (.call callee args mark) e
  | function {context : Context} {decl : FnDecl} {mark : Mark} {e : TypeError}
      (hdecl : FnStuck context .inside decl e) (slot : mark.ty = none) :
      ExprStuck context (.function decl mark) e

inductive ArgsStuck : Context → Nat → List Expr → List Ty → TypeError → Prop
  | here {context : Context} {number : Nat} {arg : Expr} {args : List Expr} {param : Ty}
      {params : List Ty} {e : TypeError} (harg : ExprStuck context arg e)
      (fresh : Fresh (Expr.allNodes args)) :
      ArgsStuck context number (arg :: args) (param :: params) e
  | mismatch {context : Context} {number : Nat} {arg : Expr} {args : List Expr} {param ty : Ty}
      {params : List Ty} (harg : HasType context arg ty)
      (misfit : ¬(param = .nothing ∨ param = ty)) (fresh : Fresh (Expr.allNodes args)) :
      ArgsStuck context number (arg :: args) (param :: params)
        ⟨.argument number param ty, arg.span⟩
  | later {context : Context} {number : Nat} {arg : Expr} {args : List Expr} {param ty : Ty}
      {params : List Ty} {e : TypeError} (harg : HasType context arg ty)
      (fits : param = .nothing ∨ param = ty)
      (hargs : ArgsStuck context (number + 1) args params e) :
      ArgsStuck context number (arg :: args) (param :: params) e

inductive FnStuck : Context → NameScope → FnDecl → TypeError → Prop
  | parameter {context : Context} {visible : NameScope} {decl : FnDecl}
      {accepted others : List Param} {param : Param}
      (hparams : decl.params = accepted ++ param :: others)
      (haccepted : ∀ param ∈ accepted, param.ty ≠ .nothing) (untyped : param.ty = .nothing)
      (slot : decl.mark.ty = none) (fresh : Fresh (Stmt.allNodes decl.body)) :
      FnStuck context visible decl ⟨.untypedParameter param.name, param.span⟩
  | body {context : Context} {visible : NameScope} {decl : FnDecl} {e : TypeError}
      (written : ∀ param ∈ decl.params, param.ty ≠ .nothing)
      (slot : decl.mark.ty = some decl.ty)
      (hbody : StmtsStuck (context.inBody visible decl) decl.body e) :
      FnStuck context visible decl e

inductive StmtStuck : Context → Stmt → TypeError → Prop
  | expression {context : Context} {expr : Expr} {e : TypeError}
      (hexpr : ExprStuck context expr e) : StmtStuck context (.expression expr) e
  | untyped {context : Context} {name : String} {mark : Mark} (slot : mark.ty = none) :
      StmtStuck context (.binding name none none mark) ⟨.untypedBinding name, mark.span⟩
  | init {context : Context} {name : String} {declared : Option TypeExpr} {init : Expr}
      {mark : Mark} {e : TypeError} (hinit : ExprStuck context init e) (slot : mark.ty = none) :
      StmtStuck context (.binding name declared (some init) mark) e
  | initializer {context : Context} {name : String} {written : TypeExpr} {init : Expr} {ty : Ty}
      {mark : Mark} (hinit : HasType context init ty) (differs : written.ty ≠ ty)
      (slot : mark.ty = none) :
      StmtStuck context (.binding name (some written) (some init) mark)
        ⟨.initializer name written.ty ty, mark.span⟩
  | block {context : Context} {block : Block} {e : TypeError}
      (hblock : StmtsStuck context.inBlock block.statements e) : StmtStuck context (.block block) e
  | condition {context : Context} {condition : Expr} {thenBlock : Block}
      {otherwise : Option Stmt} {span : Span} {e : TypeError}
      (hcondition : ExprStuck context condition e) (freshThen : Fresh thenBlock.nodes)
      (freshElse : ∀ stmt ∈ otherwise, Fresh stmt.nodes) :
      StmtStuck context (.conditional condition thenBlock otherwise span) e
  | thenBlock {context : Context} {condition : Expr} {ty : Ty} {thenBlock : Block}
      {otherwise : Option Stmt} {span : Span} {e : TypeError}
      (hcondition : HasType context condition ty)
      (hthenBlock : StmtsStuck context.inBlock thenBlock.statements e)
      (freshElse : ∀ stmt ∈ otherwise, Fresh stmt.nodes) :
      StmtStuck context (.conditional condition thenBlock otherwise span) e
  | otherwise {context : Context} {condition : Expr} {ty : Ty} {thenBlock : Block}
      {otherwise : Stmt} {span : Span} {e : TypeError}
      (hcondition : HasType context condition ty)
      (hthenBlock : StmtsTyped context.inBlock thenBlock.statements)
      (hotherwise : StmtStuck context otherwise e) :
      StmtStuck context (.conditional condition thenBlock (some otherwise) span) e
  | loop {context : Context} {condition : Expr} {body : Block} {span : Span} {e : TypeError}
      (hcondition : ExprStuck context condition e) (fresh : Fresh body.nodes) :
      StmtStuck context (.loop condition body span) e
  | body {context : Context} {condition : Expr} {ty : Ty} {body : Block} {span : Span}
      {e : TypeError} (hcondition : HasType context condition ty)
      (hbody : StmtsStuck context.inBlock body.statements e) :
      StmtStuck context (.loop condition body span) e
  | function {context : Context} {decl : FnDecl} {e : TypeError}
      (hdecl : FnStuck context .around decl e) : StmtStuck context (.function decl) e
  | finish {context : Context} {declared : Ty} {span : Span}
      (result : context.result = some declared) (differs : declared ≠ .nothing) :
      StmtStuck context (.ret none span) ⟨.returned declared .nothing, span⟩
  | value {context : Context} {value : Expr} {span : Span} {e : TypeError}
      (hvalue : ExprStuck context value e) : StmtStuck context (.ret (some value) span) e
  | ret {context : Context} {value : Expr} {declared ty : Ty} {span : Span}
      (hvalue : HasType context value ty) (result : context.result = some declared)
      (misfit : ¬(declared = .nothing ∨ declared = ty)) :
      StmtStuck context (.ret (some value) span) ⟨.returned declared ty, span⟩

inductive StmtsStuck : Context → List Stmt → TypeError → Prop
  | here {context : Context} {stmt : Stmt} {rest : List Stmt} {e : TypeError}
      (hstmt : StmtStuck context stmt e) (fresh : Fresh (Stmt.allNodes rest)) :
      StmtsStuck context (stmt :: rest) e
  | later {context : Context} {stmt : Stmt} {rest : List Stmt} {e : TypeError}
      (hstmt : StmtTyped context stmt) (hrest : StmtsStuck (context.after stmt) rest e) :
      StmtsStuck context (stmt :: rest) e

end

end Scriptlet
