import Scriptlet.Decimal.Layout
import Scriptlet.Syntax

/-! A program as nested lists in parentheses, one statement a line. -/

namespace Scriptlet

def spaced (words : List String) : String := " ".intercalate words

def parenthesized (words : List String) : String := "(" ++ spaced words ++ ")"

namespace TypeExpr

mutual

def sexp : TypeExpr → String
  | .named name _ => name
  | .function params (some result) _ =>
      "fn(" ++ ", ".intercalate (sexps params) ++ ") -> " ++ result.sexp
  | .function params none _ => "fn(" ++ ", ".intercalate (sexps params) ++ ")"

def sexps : List TypeExpr → List String
  | [] => []
  | declared :: rest => declared.sexp :: sexps rest

end

def annotated (name : String) : Option TypeExpr → String
  | none => name
  | some declared => name ++ ":" ++ declared.sexp

end TypeExpr

def Param.sexp (param : Param) : String := TypeExpr.annotated param.name param.declared

def Literal.sexp : Literal → String
  | .int value => toString value.toInt
  | .float value => value.literalText
  | .text value => "\"" ++ value ++ "\""
  | .bool value => if value then "true" else "false"

def FnDecl.heading (name : String) (params : List Param) : Option TypeExpr → List String
  | none => ["fn", name, parenthesized (params.map Param.sexp)]
  | some result => ["fn", name, parenthesized (params.map Param.sexp), "->", result.sexp]

mutual

def Expr.sexp : Expr → String
  | .literal value _ => value.sexp
  | .variable name _ => name
  | .assign name value _ => parenthesized ["=", name, value.sexp]
  | .group inner _ => parenthesized ["group", inner.sexp]
  | .unary op operand _ => parenthesized [op.symbol, operand.sexp]
  | .binary op left right _ => parenthesized [op.symbol, left.sexp, right.sexp]
  | .call callee args _ => parenthesized ("call" :: callee.sexp :: Expr.sexps args)
  | .function decl _ => decl.sexp

def Expr.sexps : List Expr → List String
  | [] => []
  | e :: rest => e.sexp :: Expr.sexps rest

def FnDecl.sexp : FnDecl → String
  | ⟨name, _, params, result, body, _⟩ =>
      parenthesized (FnDecl.heading name params result ++ Stmt.sexps body)

def Stmt.sexp : Stmt → String
  | .expression expr => expr.sexp
  | .binding name declared (some init) _ =>
      parenthesized ["let", TypeExpr.annotated name declared, init.sexp]
  | .binding name declared none _ =>
      parenthesized ["let", TypeExpr.annotated name declared]
  | .block block => block.sexp
  | .conditional condition thenBlock (some otherwise) _ =>
      parenthesized ["if", condition.sexp, thenBlock.sexp, otherwise.sexp]
  | .conditional condition thenBlock none _ =>
      parenthesized ["if", condition.sexp, thenBlock.sexp]
  | .loop condition body _ => parenthesized ["while", condition.sexp, body.sexp]
  | .function decl => decl.sexp
  | .ret (some value) _ => parenthesized ["return", value.sexp]
  | .ret none _ => parenthesized ["return"]

def Stmt.sexps : List Stmt → List String
  | [] => []
  | stmt :: rest => stmt.sexp :: Stmt.sexps rest

def Block.sexp : Block → String
  | ⟨statements, _⟩ => parenthesized ("block" :: Stmt.sexps statements)

end

def Program.sexp (program : Program) : String :=
  String.join (program.statements.map fun stmt => stmt.sexp ++ "\n")

end Scriptlet
