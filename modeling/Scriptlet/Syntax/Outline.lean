import Scriptlet.Decimal.Layout
import Scriptlet.Syntax

/-! The nodes of a program as a flat list in the order in which they are written, each with
the type that its slot holds. -/

namespace Scriptlet

structure OutlineRow where
  label : String
  span : Span
  ty : Option Ty

namespace TypeExpr

/-- An annotation always has a type, that which is written. -/
def row (written : TypeExpr) : OutlineRow := ⟨"annotation", written.span, some written.ty⟩

def rows (written : Option TypeExpr) : List OutlineRow := (written.map row).toList

end TypeExpr

def Param.rows (param : Param) : List OutlineRow :=
  ⟨s!"param {param.name}", param.span, none⟩ :: TypeExpr.rows param.declared

def Literal.label : Literal → String
  | .int value => s!"int {value.toInt}"
  | .float value => s!"float {value.literalText}"
  | .text value => s!"string {value}"
  | .bool value => if value then "bool true" else "bool false"

def Mark.row (mark : Mark) (label : String) : OutlineRow := ⟨label, mark.span, mark.ty⟩

mutual

def Expr.rows : Expr → List OutlineRow
  | .literal value mark => [mark.row value.label]
  | .variable name mark => [mark.row s!"variable {name}"]
  | .assign name value mark => mark.row s!"assign {name}" :: value.rows
  | .group inner mark => mark.row "group" :: inner.rows
  | .unary op operand mark => mark.row s!"unary {op.symbol}" :: operand.rows
  | .binary op left right mark => mark.row s!"binary {op.symbol}" :: (left.rows ++ right.rows)
  | .call callee args mark => mark.row "call" :: (callee.rows ++ Expr.allRows args)
  | .function decl mark => mark.row "literal" :: decl.rows

def Expr.allRows : List Expr → List OutlineRow
  | [] => []
  | e :: rest => e.rows ++ Expr.allRows rest

def FnDecl.rows : FnDecl → List OutlineRow
  | ⟨name, _, params, result, body, mark⟩ =>
      mark.row s!"fn {name}" ::
        (params.flatMap Param.rows ++ TypeExpr.rows result ++ Stmt.allRows body)

def Stmt.rows : Stmt → List OutlineRow
  | .expression expr => ⟨"expression", expr.span, none⟩ :: expr.rows
  | .binding name declared (some init) mark =>
      mark.row s!"let {name}" :: (TypeExpr.rows declared ++ init.rows)
  | .binding name declared none mark => mark.row s!"let {name}" :: TypeExpr.rows declared
  | .block block => ⟨"block", block.span, none⟩ :: block.rows
  | .conditional condition thenBlock none span =>
      ⟨"if", span, none⟩ :: (condition.rows ++ ⟨"then", thenBlock.span, none⟩ :: thenBlock.rows)
  | .conditional condition thenBlock (some otherwise) span =>
      ⟨"if", span, none⟩ :: (condition.rows ++
        ⟨"then", thenBlock.span, none⟩ :: (thenBlock.rows ++ otherwise.rows))
  | .loop condition body span =>
      ⟨"while", span, none⟩ :: (condition.rows ++ ⟨"body", body.span, none⟩ :: body.rows)
  | .function decl => ⟨"declaration", decl.mark.span, none⟩ :: decl.rows
  | .ret none span => [⟨"return", span, none⟩]
  | .ret (some value) span => ⟨"return", span, none⟩ :: value.rows

def Stmt.allRows : List Stmt → List OutlineRow
  | [] => []
  | stmt :: rest => stmt.rows ++ Stmt.allRows rest

def Block.rows : Block → List OutlineRow
  | ⟨statements, _⟩ => Stmt.allRows statements

end

def Program.outline (program : Program) : List OutlineRow := Stmt.allRows program.statements

end Scriptlet
