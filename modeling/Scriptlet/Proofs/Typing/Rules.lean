import Scriptlet.Proofs.Typing.Context

/-! The typing rules, on trees whose slots are filled. -/

namespace Scriptlet

/-- Two integers make an integer, any other two numbers a float. -/
inductive Ty.Widens : Ty → Ty → Ty → Prop
  | ints : Widens .int .int .int
  | intFloat : Widens .int .float .float
  | floatInt : Widens .float .int .float
  | floats : Widens .float .float .float

inductive UnaryOp.Makes : UnaryOp → Ty → Ty → Prop
  | int : Makes .negate .int .int
  | float : Makes .negate .float .float
  | not {ty : Ty} : Makes .not ty .bool

inductive BinaryOp.Makes : BinaryOp → Ty → Ty → Ty → Prop
  | concat : Makes .add .string .string .string
  | arithmetic {op : BinaryOp} {left right ty : Ty}
      (hop : op ∈ [add, subtract, multiply, divide]) (widens : left.Widens right ty) :
      Makes op left right ty
  | floor {left right ty : Ty} (widens : left.Widens right ty) :
      Makes .floorDivide left right .int
  | same {op : BinaryOp} {ty : Ty} (hop : op ∈ [equal, notEqual]) : Makes op ty ty .bool
  | compare {op : BinaryOp} {left right ty : Ty}
      (hop : op ∈ [equal, notEqual, less, lessEqual, greater, greaterEqual])
      (widens : left.Widens right ty) : Makes op left right .bool

mutual

inductive HasType : Context → Expr → Ty → Prop
  | literal {context : Context} {value : Literal} {mark : Mark}
      (slot : mark.ty = some value.ty) : HasType context (.literal value mark) value.ty
  | read {context : Context} {name : String} {ty : Ty} {mark : Mark}
      (found : context.types name = some ty) (slot : mark.ty = some ty) :
      HasType context (.variable name mark) ty
  | assign {context : Context} {name : String} {value : Expr} {ty : Ty} {mark : Mark}
      (found : context.types name = some ty) (hvalue : HasType context value ty)
      (slot : mark.ty = some ty) : HasType context (.assign name value mark) ty
  | group {context : Context} {inner : Expr} {ty : Ty} {mark : Mark}
      (hinner : HasType context inner ty) (slot : mark.ty = some ty) :
      HasType context (.group inner mark) ty
  | unary {context : Context} {op : UnaryOp} {operand : Expr} {operandTy ty : Ty} {mark : Mark}
      (hoperand : HasType context operand operandTy) (makes : op.Makes operandTy ty)
      (slot : mark.ty = some ty) : HasType context (.unary op operand mark) ty
  | binary {context : Context} {op : BinaryOp} {left right : Expr} {leftTy rightTy ty : Ty}
      {mark : Mark} (hleft : HasType context left leftTy) (hright : HasType context right rightTy)
      (makes : op.Makes leftTy rightTy ty) (slot : mark.ty = some ty) :
      HasType context (.binary op left right mark) ty
  | call {context : Context} {callee : Expr} {args : List Expr} {params : List Ty} {ty : Ty}
      {mark : Mark} (hcallee : HasType context callee (.function params ty))
      (hargs : HaveTypes context args params) (slot : mark.ty = some ty) :
      HasType context (.call callee args mark) ty
  | function {context : Context} {decl : FnDecl} {mark : Mark}
      (hdecl : FnTyped context .inside decl) (slot : mark.ty = some decl.ty) :
      HasType context (.function decl mark) decl.ty

/-- Arguments of the types of their parameters, of which none takes every type. -/
inductive HaveTypes : Context → List Expr → List Ty → Prop
  | nil {context : Context} : HaveTypes context [] []
  | cons {context : Context} {arg : Expr} {args : List Expr} {param ty : Ty} {params : List Ty}
      (harg : HasType context arg ty) (fits : param = .nothing ∨ param = ty)
      (hargs : HaveTypes context args params) : HaveTypes context (arg :: args) (param :: params)

inductive FnTyped : Context → NameScope → FnDecl → Prop
  | intro {context : Context} {visible : NameScope} {decl : FnDecl}
      (written : ∀ param ∈ decl.params, param.ty ≠ .nothing)
      (slot : decl.mark.ty = some decl.ty)
      (hbody : StmtsTyped (context.inBody visible decl) decl.body) :
      FnTyped context visible decl

inductive StmtTyped : Context → Stmt → Prop
  | expression {context : Context} {expr : Expr} {ty : Ty} (hexpr : HasType context expr ty) :
      StmtTyped context (.expression expr)
  | uninitialized {context : Context} {name : String} {written : TypeExpr} {mark : Mark}
      (slot : mark.ty = some written.ty) :
      StmtTyped context (.binding name (some written) none mark)
  | binding {context : Context} {name : String} {declared : Option TypeExpr} {init : Expr}
      {ty : Ty} {mark : Mark} (hinit : HasType context init ty)
      (agrees : ∀ written ∈ declared, written.ty = ty) (slot : mark.ty = some ty) :
      StmtTyped context (.binding name declared (some init) mark)
  | block {context : Context} {block : Block}
      (hblock : StmtsTyped context.inBlock block.statements) : StmtTyped context (.block block)
  | conditional {context : Context} {condition : Expr} {ty : Ty} {thenBlock : Block}
      {span : Span} (hcondition : HasType context condition ty)
      (hthenBlock : StmtsTyped context.inBlock thenBlock.statements) :
      StmtTyped context (.conditional condition thenBlock none span)
  | alternative {context : Context} {condition : Expr} {ty : Ty} {thenBlock : Block}
      {otherwise : Stmt} {span : Span} (hcondition : HasType context condition ty)
      (hthenBlock : StmtsTyped context.inBlock thenBlock.statements)
      (branch : otherwise.isBranch) (hotherwise : StmtTyped context otherwise) :
      StmtTyped context (.conditional condition thenBlock (some otherwise) span)
  | loop {context : Context} {condition : Expr} {ty : Ty} {body : Block} {span : Span}
      (hcondition : HasType context condition ty)
      (hbody : StmtsTyped context.inBlock body.statements) :
      StmtTyped context (.loop condition body span)
  | function {context : Context} {decl : FnDecl} (hdecl : FnTyped context .around decl) :
      StmtTyped context (.function decl)
  | finish {context : Context} {span : Span}
      (result : ∀ declared ∈ context.result, declared = .nothing) :
      StmtTyped context (.ret none span)
  | ret {context : Context} {value : Expr} {ty : Ty} {span : Span}
      (hvalue : HasType context value ty)
      (result : ∀ declared ∈ context.result, declared = .nothing ∨ declared = ty) :
      StmtTyped context (.ret (some value) span)

inductive StmtsTyped : Context → List Stmt → Prop
  | nil {context : Context} : StmtsTyped context []
  | cons {context : Context} {stmt : Stmt} {rest : List Stmt} (hstmt : StmtTyped context stmt)
      (hrest : StmtsTyped (context.after stmt) rest) : StmtsTyped context (stmt :: rest)

end

theorem HasType.slot {context : Context} {expr : Expr} {ty : Ty} (h : HasType context expr ty) :
    expr.mark.ty = some ty := by
  cases h <;> assumption

theorem FnTyped.slot {context : Context} {visible : NameScope} {decl : FnDecl}
    (h : FnTyped context visible decl) : decl.mark.ty = some decl.ty := by
  cases h with
  | intro _ slot _ => exact slot

end Scriptlet
