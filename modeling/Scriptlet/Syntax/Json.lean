import Scriptlet.Json
import Scriptlet.Syntax

/-! A program as structured data: every field of every node, its span included, but no type
slots. A node of one of several shapes names its shape first. -/

namespace Scriptlet

def Span.json (span : Span) : Json :=
  .object [("offset", .int span.offset), ("len", .int span.len), ("line", .int span.line)]

namespace TypeExpr

mutual

def json : TypeExpr → Json
  | .named name span =>
      .object [("type", .string "Named"), ("name", .string name), ("span", span.json)]
  | .function params (some result) span =>
      .object [("type", .string "Function"), ("params", .array (jsons params)),
        ("ret", result.json), ("span", span.json)]
  | .function params none span =>
      .object [("type", .string "Function"), ("params", .array (jsons params)),
        ("ret", .null), ("span", span.json)]

def jsons : List TypeExpr → List Json
  | [] => []
  | declared :: rest => declared.json :: jsons rest

end

def json? : Option TypeExpr → Json
  | none => .null
  | some declared => declared.json

end TypeExpr

def Param.json (param : Param) : Json :=
  .object [("name", .string param.name), ("annotation", TypeExpr.json? param.declared),
    ("span", param.span.json)]

def Literal.json : Literal → Json
  | .int value => .object [("Int", .int value.toInt)]
  | .float value => .object [("Float", .float value)]
  | .text value => .object [("Str", .string value)]
  | .bool value => .object [("Bool", .bool value)]

mutual

def Expr.json : Expr → Json
  | .literal value mark =>
      .object [("type", .string "Literal"), ("value", value.json), ("span", mark.span.json)]
  | .variable name mark =>
      .object [("type", .string "Variable"), ("name", .string name), ("span", mark.span.json)]
  | .assign name value mark =>
      .object [("type", .string "Assign"), ("name", .string name), ("value", value.json),
        ("span", mark.span.json)]
  | .group inner mark =>
      .object [("type", .string "Grouping"), ("expression", inner.json),
        ("span", mark.span.json)]
  | .unary op operand mark =>
      .object [("type", .string "Unary"), ("operator", .string op.name),
        ("operand", operand.json), ("span", mark.span.json)]
  | .binary op left right mark =>
      .object [("type", .string "Binary"), ("left", left.json), ("operator", .string op.name),
        ("right", right.json), ("span", mark.span.json)]
  | .call callee args mark =>
      .object [("type", .string "Call"), ("callee", callee.json),
        ("arguments", .array (Expr.jsons args)), ("span", mark.span.json)]
  | .function decl mark =>
      .object [("type", .string "Function"), ("decl", .object decl.fields),
        ("span", mark.span.json)]

def Expr.jsons : List Expr → List Json
  | [] => []
  | e :: rest => e.json :: Expr.jsons rest

def FnDecl.fields : FnDecl → List (String × Json)
  | ⟨name, anonymous, params, result, body, mark⟩ =>
      [("name", .string name), ("anonymous", .bool anonymous),
        ("params", .array (params.map Param.json)), ("return_type", TypeExpr.json? result),
        ("body", .array (Stmt.jsons body)), ("span", mark.span.json)]

def Stmt.json : Stmt → Json
  | .expression expr =>
      .object [("type", .string "Expression"), ("expression", expr.json),
        ("span", expr.span.json)]
  | .binding name declared (some init) mark =>
      .object [("type", .string "Let"), ("name", .string name),
        ("annotation", TypeExpr.json? declared), ("initializer", init.json),
        ("span", mark.span.json)]
  | .binding name declared none mark =>
      .object [("type", .string "Let"), ("name", .string name),
        ("annotation", TypeExpr.json? declared), ("initializer", .null),
        ("span", mark.span.json)]
  | .block block => .object (("type", .string "Block") :: block.fields)
  | .conditional condition thenBlock (some otherwise) span =>
      .object [("type", .string "If"), ("condition", condition.json),
        ("then_branch", .object thenBlock.fields), ("else_branch", otherwise.json),
        ("span", span.json)]
  | .conditional condition thenBlock none span =>
      .object [("type", .string "If"), ("condition", condition.json),
        ("then_branch", .object thenBlock.fields), ("else_branch", .null),
        ("span", span.json)]
  | .loop condition body span =>
      .object [("type", .string "While"), ("condition", condition.json),
        ("body", .object body.fields), ("span", span.json)]
  | .function decl => .object (("type", .string "Fn") :: decl.fields)
  | .ret (some value) span =>
      .object [("type", .string "Return"), ("value", value.json), ("span", span.json)]
  | .ret none span =>
      .object [("type", .string "Return"), ("value", .null), ("span", span.json)]

def Stmt.jsons : List Stmt → List Json
  | [] => []
  | stmt :: rest => stmt.json :: Stmt.jsons rest

def Block.fields : Block → List (String × Json)
  | ⟨statements, span⟩ =>
      [("statements", .array (Stmt.jsons statements)), ("span", span.json)]

end

def Program.json (program : Program) : String :=
  (Json.object [("statements", .array (Stmt.jsons program.statements))]).pretty

end Scriptlet
