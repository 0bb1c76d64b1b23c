import Mathlib.Logic.Function.Basic
import Scriptlet.Proofs.Tree
import Scriptlet.Ty.Check

/-! Contexts of the typing rules. A context gives names their types and is never changed: what is
declared makes another context, in which the statements behind it are typed. -/

namespace Scriptlet

def Param.ty (param : Param) : Ty := (param.declared.map TypeExpr.ty).getD .nothing

def FnDecl.resultTy (decl : FnDecl) : Ty := (decl.result.map TypeExpr.ty).getD .nothing

def FnDecl.ty (decl : FnDecl) : Ty := .function (decl.params.map Param.ty) decl.resultTy

/-- The name that a statement adds to its scope, with the type in the statement's slot. -/
def Stmt.declared? : Stmt → Option (String × Ty)
  | .binding name _ _ mark => mark.ty.map (name, ·)
  | .function decl => decl.mark.ty.map (decl.name, ·)
  | _ => none

/-- The types of the names that are visible and the result type of the function around. Outside of
every scope, where no program stands, nothing can be declared. -/
structure Context where
  types : String → Option Ty
  result : Option Ty
  opened : Bool

namespace Context

/-- What a name meant before is hidden. -/
def extend (context : Context) (name : String) (ty : Ty) : Context :=
  if context.opened then { context with types := Function.update context.types name (some ty) }
  else context

def after (context : Context) (stmt : Stmt) : Context :=
  match stmt.declared? with
  | some (name, ty) => context.extend name ty
  | none => context

def afterAll (context : Context) (stmts : List Stmt) : Context := stmts.foldl after context

/-- What is visible around a block is visible in it. -/
def inBlock (context : Context) : Context := { context with opened := true }

def withParams (context : Context) (params : List Param) : Context :=
  params.foldl (fun context param => context.extend param.name param.ty) context

/-- A declared function is visible where it stands, and so in its own body. A literal with a name
is visible in its body only. -/
def withFunction (context : Context) (decl : FnDecl) : NameScope → Context
  | .around => (context.extend decl.name decl.ty).inBlock
  | .inside =>
      if decl.anonymous then context.inBlock else context.inBlock.extend decl.name decl.ty

/-- The parameters stand below the name of the function and may hide it. -/
def inBody (context : Context) (visible : NameScope) (decl : FnDecl) : Context :=
  { (context.withFunction decl visible).withParams decl.params with result := some decl.resultTy }

variable {context : Context} {name : String} {ty : Ty}

@[simp] theorem result_extend : (context.extend name ty).result = context.result := by
  unfold extend
  split <;> rfl

@[simp] theorem result_after (stmt : Stmt) : (context.after stmt).result = context.result := by
  unfold after
  split <;> simp

end Context

end Scriptlet
