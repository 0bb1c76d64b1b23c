import Scriptlet.Bindings
import Scriptlet.Builtin
import Scriptlet.Diagnostic
import Scriptlet.Syntax

/-! Checking types, statement after statement in a stack of scopes. A check answers the tree
with its type slots filled as far as the check came, the scopes as they are afterwards, and
the type or the first error. A slot that is already filled keeps its type, and that type is
what the node then counts as. -/

namespace Scriptlet

inductive TypeFault where
  | undefined (name : String)
  | undeclaredTarget (name : String)
  | assignment (name : String) (target value : Ty)
  | initializer (name : String) (declared init : Ty)
  | untypedBinding (name : String)
  | untypedParameter (name : String)
  | returned (declared value : Ty)
  | unaryOperand (op : UnaryOp) (ty : Ty)
  | binaryOperands (op : BinaryOp) (left right : Ty)
  | notCallable (callee : Ty)
  | arity (params args : Nat)
  | argument (number : Nat) (param arg : Ty)
deriving DecidableEq

namespace TypeFault

def message : TypeFault → String
  | undefined name => s!"undefined name '{name}'"
  | undeclaredTarget name => s!"cannot assign to undeclared name '{name}'"
  | assignment name target value =>
      s!"cannot assign {value.text} to '{name}' of type {target.text}"
  | initializer name declared init =>
      s!"'{name}' is declared as {declared.text} but initialized with {init.text}"
  | untypedBinding name => s!"'{name}' must be annotated when its type cannot be inferred"
  | untypedParameter name => s!"parameter '{name}' needs a type annotation"
  | returned declared value =>
      s!"function returns {declared.text} but this returns {value.text}"
  | unaryOperand op ty => s!"operator '{op.symbol}' cannot be applied to {ty.text}"
  | binaryOperands op left right =>
      s!"operator '{op.symbol}' cannot be applied to {left.text} and {right.text}"
  | notCallable callee => s!"cannot call a value of type {callee.text}"
  | arity params args => s!"expected {params} arguments but got {args}"
  | argument number param arg =>
      s!"argument {number} expected {param.text} but got {arg.text}"

end TypeFault

structure TypeError where
  fault : TypeFault
  span : Span
deriving DecidableEq

def TypeError.diagnostic (e : TypeError) : Diagnostic :=
  ⟨.typecheck, e.fault.message, e.span⟩

instance (result : Except TypeError Unit) : Decidable (result = .ok ()) :=
  match result with
  | .ok () => isTrue rfl
  | .error _ => isFalse nofun

/-- The scopes that are open and the result types of the functions being checked, innermost
first. -/
structure Checker where
  scopes : List (Bindings Ty)
  returns : List Ty

namespace Checker

def new : Checker := ⟨[Builtin.all.map fun builtin => (builtin.name, builtin.signature)], []⟩

/-- The type of a name in the innermost scope that has it. -/
def lookup (checker : Checker) (name : String) : Option Ty :=
  checker.scopes.findSome? (·.find? name)

def declare (checker : Checker) (name : String) (ty : Ty) : Checker :=
  match checker.scopes with
  | [] => checker
  | scope :: outer => { checker with scopes := scope.insert name ty :: outer }

def openScope (checker : Checker) (scope : Bindings Ty) : Checker :=
  { checker with scopes := scope :: checker.scopes }

def closeScope (checker : Checker) : Checker :=
  { checker with scopes := checker.scopes.tail }

def enterFunction (checker : Checker) (result : Ty) : Checker :=
  { checker with returns := result :: checker.returns }

def leaveFunction (checker : Checker) : Checker :=
  { checker with returns := checker.returns.tail }

/-- A function's result must have the declared type, unless that is none. -/
def checkResult (checker : Checker) (value : Ty) (span : Span) : Except TypeError Unit :=
  match checker.returns with
  | declared :: _ =>
      if declared ≠ .nothing ∧ declared ≠ value then .error ⟨.returned declared value, span⟩
      else .ok ()
  | [] => .ok ()

end Checker

namespace Ty

/-- Two integers make an integer, any other two numbers a float. -/
def widen? : Ty → Ty → Option Ty
  | .int, .int => some .int
  | .int, .float | .float, .int | .float, .float => some .float
  | _, _ => none

end Ty

namespace BinaryOp

def resultTy? (op : BinaryOp) (left right : Ty) : Option Ty :=
  match op with
  | add => if left = .string ∧ right = .string then some .string else left.widen? right
  | subtract | multiply | divide => left.widen? right
  | floorDivide => (left.widen? right).map fun _ => .int
  | equal | notEqual =>
      if (left.widen? right).isSome ∨ left = right then some .bool else none
  | less | lessEqual | greater | greaterEqual => (left.widen? right).map fun _ => .bool

end BinaryOp

namespace UnaryOp

def resultTy? (op : UnaryOp) (operand : Ty) : Option Ty :=
  match op with
  | negate => if operand.isNumeric then some operand else none
  | not => some .bool

end UnaryOp

def Literal.ty : Literal → Ty
  | .int _ => .int
  | .float _ => .float
  | .text _ => .string
  | .bool _ => .bool

/-- Fills an empty slot, and answers the type that the slot then holds. -/
def Mark.settle (mark : Mark) (ty : Ty) : Mark × Ty :=
  match mark.ty with
  | some old => (mark, old)
  | none => ({ mark with ty := some ty }, ty)

/-- A node after its check, the scopes after it, and the type or the first error. -/
structure Checked (ν α : Type) where
  node : ν
  checker : Checker
  result : Except TypeError α

namespace Checked

def settle {ν : Type} (build : Mark → ν) (mark : Mark) (checker : Checker) :
    Except TypeError Ty → Checked ν Ty
  | .ok ty => ⟨build (mark.settle ty).1, checker, .ok (mark.settle ty).2⟩
  | .error e => ⟨build mark, checker, .error e⟩

end Checked

def orFault {α : Type} (value : Option α) (fault : TypeFault) (span : Span) :
    Except TypeError α :=
  match value with
  | some a => .ok a
  | none => .error ⟨fault, span⟩

/-- The types of the parameters, all of which have to be written down. -/
def paramTys : List Param → Except TypeError (List Ty)
  | [] => .ok []
  | param :: rest => do
      match param.declared.map TypeExpr.ty with
      | none | some .nothing => .error ⟨.untypedParameter param.name, param.span⟩
      | some ty => return ty :: (← paramTys rest)

def bindingTy (name : String) (span : Span) : Option Ty → Option Ty → Except TypeError Ty
  | some declared, some init =>
      if declared = init then .ok declared
      else .error ⟨.initializer name declared init, span⟩
  | some ty, none | none, some ty => .ok ty
  | none, none => .error ⟨.untypedBinding name, span⟩

/-- Where the name of a function is visible: in the scope around a declaration, or only in
the body of a literal. -/
inductive NameScope where
  | around
  | inside
deriving DecidableEq

/-- The scope in which a body is checked. The parameters may hide the name of a literal. -/
def bodyScope (visible : NameScope) (decl : FnDecl) (ty : Ty) (params : List Ty) : Bindings Ty :=
  let own : Bindings Ty :=
    if visible = .inside ∧ !decl.anonymous then [(decl.name, ty)] else []
  (decl.params.zip params).foldl (fun scope entry => scope.insert entry.1.name entry.2) own

mutual

def checkExpr (checker : Checker) : Expr → Checked Expr Ty
  | .literal value mark => .settle (.literal value) mark checker (.ok value.ty)
  | .variable name mark =>
      .settle (.variable name) mark checker
        (orFault (checker.lookup name) (.undefined name) mark.span)
  | .assign name value mark =>
      match checker.lookup name with
      | none => ⟨.assign name value mark, checker, .error ⟨.undeclaredTarget name, mark.span⟩⟩
      | some target =>
          let value := checkExpr checker value
          .settle (.assign name value.node) mark value.checker (do
            let actual ← value.result
            if actual = target then return target
            throw ⟨.assignment name target actual, mark.span⟩)
  | .group inner mark =>
      let inner := checkExpr checker inner
      .settle (.group inner.node) mark inner.checker inner.result
  | .unary op operand mark =>
      let operand := checkExpr checker operand
      .settle (.unary op operand.node) mark operand.checker (do
        let ty ← operand.result
        orFault (op.resultTy? ty) (.unaryOperand op ty) mark.span)
  | .binary op left right mark =>
      let left := checkExpr checker left
      match left.result with
      | .error e => ⟨.binary op left.node right mark, left.checker, .error e⟩
      | .ok leftTy =>
          let right := checkExpr left.checker right
          .settle (.binary op left.node right.node) mark right.checker (do
            let rightTy ← right.result
            orFault (op.resultTy? leftTy rightTy) (.binaryOperands op leftTy rightTy) mark.span)
  | .call callee args mark =>
      let callee := checkExpr checker callee
      match callee.result with
      | .error e => ⟨.call callee.node args mark, callee.checker, .error e⟩
      | .ok (.function params result) =>
          if params.length = args.length then
            let args := checkArgs callee.checker 1 params args
            .settle (.call callee.node args.node) mark args.checker (do
              args.result
              return result)
          else
            ⟨.call callee.node args mark, callee.checker,
              .error ⟨.arity params.length args.length, mark.span⟩⟩
      | .ok ty =>
          ⟨.call callee.node args mark, callee.checker,
            .error ⟨.notCallable ty, callee.node.span⟩⟩
  | .function decl mark =>
      let decl := checkFunction checker .inside decl
      .settle (.function decl.node) mark decl.checker decl.result

def checkArgs (checker : Checker) (number : Nat) (params : List Ty) :
    List Expr → Checked (List Expr) Unit
  | [] => ⟨[], checker, .ok ()⟩
  | arg :: rest =>
      match params with
      | [] => ⟨arg :: rest, checker, .ok ()⟩
      | param :: params =>
          let arg := checkExpr checker arg
          match arg.result with
          | .error e => ⟨arg.node :: rest, arg.checker, .error e⟩
          | .ok ty =>
              if param = .nothing ∨ param = ty then
                let rest := checkArgs arg.checker (number + 1) params rest
                ⟨arg.node :: rest.node, rest.checker, rest.result⟩
              else
                ⟨arg.node :: rest, arg.checker,
                  .error ⟨.argument number param ty, arg.node.span⟩⟩

/-- The type of a function is settled before its body is checked, so that the body can call
the function. -/
def checkFunction (checker : Checker) (visible : NameScope) : FnDecl → Checked FnDecl Ty
  | ⟨name, anonymous, params, result, body, mark⟩ =>
      match paramTys params with
      | .error e => ⟨⟨name, anonymous, params, result, body, mark⟩, checker, .error e⟩
      | .ok tys =>
          let resultTy := (result.map TypeExpr.ty).getD .nothing
          let settled := mark.settle (.function tys resultTy)
          let around := if visible = .around then checker.declare name settled.2 else checker
          let scope := bodyScope visible ⟨name, anonymous, params, result, [], mark⟩ settled.2 tys
          let body := checkStmts ((around.openScope scope).enterFunction resultTy) body
          ⟨⟨name, anonymous, params, result, body.node, settled.1⟩,
            body.checker.leaveFunction.closeScope, body.result.map fun _ => settled.2⟩

def checkStmt (checker : Checker) : Stmt → Checked Stmt Unit
  | .expression expr =>
      let expr := checkExpr checker expr
      ⟨.expression expr.node, expr.checker, expr.result.map fun _ => ()⟩
  | .binding name declared none mark =>
      match bindingTy name mark.span (declared.map TypeExpr.ty) none with
      | .error e => ⟨.binding name declared none mark, checker, .error e⟩
      | .ok ty =>
          let settled := mark.settle ty
          ⟨.binding name declared none settled.1, checker.declare name settled.2, .ok ()⟩
  | .binding name declared (some init) mark =>
      let init := checkExpr checker init
      let ty := do bindingTy name mark.span (declared.map TypeExpr.ty) (some (← init.result))
      match ty with
      | .error e => ⟨.binding name declared (some init.node) mark, init.checker, .error e⟩
      | .ok ty =>
          let settled := mark.settle ty
          ⟨.binding name declared (some init.node) settled.1,
            init.checker.declare name settled.2, .ok ()⟩
  | .block block =>
      let block := checkBlock checker block
      ⟨.block block.node, block.checker, block.result⟩
  | .conditional condition thenBlock none span =>
      let condition := checkExpr checker condition
      match condition.result with
      | .error e =>
          ⟨.conditional condition.node thenBlock none span, condition.checker, .error e⟩
      | .ok _ =>
          let thenBlock := checkBlock condition.checker thenBlock
          ⟨.conditional condition.node thenBlock.node none span, thenBlock.checker,
            thenBlock.result⟩
  | .conditional condition thenBlock (some otherwise) span =>
      let condition := checkExpr checker condition
      match condition.result with
      | .error e =>
          ⟨.conditional condition.node thenBlock (some otherwise) span, condition.checker,
            .error e⟩
      | .ok _ =>
          let thenBlock := checkBlock condition.checker thenBlock
          match thenBlock.result with
          | .error e =>
              ⟨.conditional condition.node thenBlock.node (some otherwise) span,
                thenBlock.checker, .error e⟩
          | .ok _ =>
              let otherwise := checkStmt thenBlock.checker otherwise
              ⟨.conditional condition.node thenBlock.node (some otherwise.node) span,
                otherwise.checker, otherwise.result⟩
  | .loop condition body span =>
      let condition := checkExpr checker condition
      match condition.result with
      | .error e => ⟨.loop condition.node body span, condition.checker, .error e⟩
      | .ok _ =>
          let body := checkBlock condition.checker body
          ⟨.loop condition.node body.node span, body.checker, body.result⟩
  | .function decl =>
      let decl := checkFunction checker .around decl
      ⟨.function decl.node, decl.checker, decl.result.map fun _ => ()⟩
  | .ret none span => ⟨.ret none span, checker, checker.checkResult .nothing span⟩
  | .ret (some value) span =>
      let value := checkExpr checker value
      ⟨.ret (some value.node) span, value.checker, do
        value.checker.checkResult (← value.result) span⟩

def checkStmts (checker : Checker) : List Stmt → Checked (List Stmt) Unit
  | [] => ⟨[], checker, .ok ()⟩
  | stmt :: rest =>
      let stmt := checkStmt checker stmt
      match stmt.result with
      | .error e => ⟨stmt.node :: rest, stmt.checker, .error e⟩
      | .ok _ =>
          let rest := checkStmts stmt.checker rest
          ⟨stmt.node :: rest.node, rest.checker, rest.result⟩

/-- What a block declares is forgotten behind it. -/
def checkBlock (checker : Checker) : Block → Checked Block Unit
  | ⟨statements, span⟩ =>
      let statements := checkStmts (checker.openScope []) statements
      ⟨⟨statements.node, span⟩, statements.checker.closeScope, statements.result⟩

end

def Program.check (program : Program) (checker : Checker) : Checked Program Unit :=
  let statements := checkStmts checker program.statements
  ⟨⟨statements.node⟩, statements.checker, statements.result⟩

end Scriptlet
