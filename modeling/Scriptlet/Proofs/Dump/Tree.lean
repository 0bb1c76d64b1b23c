import Scriptlet.Proofs.Dump.Read
import Scriptlet.Proofs.Tree

/-! Trees as forms, and trees read from forms. The first word of a list says what is meant, and the
number of its items what is left out. -/

namespace Scriptlet

def Form.plain (text : String) : Form := .word text none

def Param.form (param : Param) : Form := .word param.name param.declared

def Literal.form : Literal → Form
  | .text value => .quoted value
  | value => .plain value.sexp

mutual

def Expr.form : Expr → Form
  | .literal value _ => value.form
  | .variable name _ => .plain name
  | .assign name value _ => .list [.plain "=", .plain name, value.form] none
  | .group inner _ => .list [.plain "group", inner.form] none
  | .unary op operand _ => .list [.plain op.symbol, operand.form] none
  | .binary op left right _ => .list [.plain op.symbol, left.form, right.form] none
  | .call callee args _ => .list (.plain "call" :: callee.form :: Expr.forms args) none
  | .function decl _ => decl.form

def Expr.forms : List Expr → List Form
  | [] => []
  | expr :: rest => expr.form :: Expr.forms rest

def FnDecl.form : FnDecl → Form
  | ⟨name, _, params, result, body, _⟩ =>
      .list (.plain "fn" :: .plain name :: .list (params.map Param.form) result :: Stmt.forms body)
        none

def Stmt.form : Stmt → Form
  | .expression expr => expr.form
  | .binding name declared none _ => .list [.plain "let", .word name declared] none
  | .binding name declared (some init) _ =>
      .list [.plain "let", .word name declared, init.form] none
  | .block block => block.form
  | .conditional condition thenBlock none _ =>
      .list [.plain "if", condition.form, thenBlock.form] none
  | .conditional condition thenBlock (some otherwise) _ =>
      .list [.plain "if", condition.form, thenBlock.form, otherwise.form] none
  | .loop condition body _ => .list [.plain "while", condition.form, body.form] none
  | .function decl => decl.form
  | .ret none _ => .list [.plain "return"] none
  | .ret (some value) _ => .list [.plain "return", value.form] none

def Stmt.forms : List Stmt → List Form
  | [] => []
  | stmt :: rest => stmt.form :: Stmt.forms rest

def Block.form : Block → Form
  | ⟨statements, _⟩ => .list (.plain "block" :: Stmt.forms statements) none

end

theorem Stmt.forms_eq_map (stmts : List Stmt) : Stmt.forms stmts = stmts.map Stmt.form := by
  induction stmts with
  | nil => rfl
  | cons stmt rest ih => rw [Stmt.forms, ih, List.map_cons]

def BinaryOp.ofSymbol? (symbol : String) : Option BinaryOp :=
  [add, subtract, multiply, divide, floorDivide, equal, notEqual, less, lessEqual, greater,
    greaterEqual].find? (·.symbol = symbol)

def UnaryOp.ofSymbol? (symbol : String) : Option UnaryOp :=
  [negate, not].find? (·.symbol = symbol)

def Mark.empty : Mark := ⟨.nowhere, none⟩

namespace Form

def name? : Form → Option String
  | .word text _ => some text
  | _ => none

def param? : Form → Option Param
  | .word name declared => some ⟨name, declared, .nowhere⟩
  | _ => none

def ofNumber? : Json → Option Literal
  | .int value => some (.int (.ofInt value))
  | .float value => some (.float value)
  | _ => none

def literal? (word : String) : Option Literal :=
  if word = "true" then some (.bool true)
  else if word = "false" then some (.bool false)
  else do
    let (number, rest) ← Json.number? word.toList
    if rest = [] then ofNumber? number else none

def atom? : Form → Option Expr
  | .quoted text => some (.literal (.text text) .empty)
  | .word text _ =>
      match literal? text with
      | some value => some (.literal value .empty)
      | none => some (.variable text .empty)
  | .list .. => none

mutual

def expr? : Form → Option Expr
  | .list (.word head _ :: operands) _ =>
      if head = "fn" then do return .function (← function? operands) .empty
      else operation? head operands
  | form => form.atom?

/-- What the operands of a list mean behind its first word. -/
def operation? (head : String) : List Form → Option Expr
  | [] => none
  | first :: rest =>
      if head = "call" then do return .call (← first.expr?) (← exprs? rest) .empty
      else
        match rest with
        | [] =>
            if head = "group" then do return .group (← first.expr?) .empty
            else do return .unary (← UnaryOp.ofSymbol? head) (← first.expr?) .empty
        | [second] =>
            if head = "=" then do return .assign (← first.name?) (← second.expr?) .empty
            else do
              return .binary (← BinaryOp.ofSymbol? head) (← first.expr?) (← second.expr?) .empty
        | _ => none

def exprs? : List Form → Option (List Expr)
  | [] => some []
  | form :: rest => do return (← form.expr?) :: (← exprs? rest)

def function? : List Form → Option FnDecl
  | .word name _ :: .list params result :: body => do
      let params ← params.mapM param?
      let anonymous := name.toList.head? == some '<'
      return ⟨name, anonymous, params, result, ← stmts? body, .empty⟩
  | _ => none

def stmt? : Form → Option Stmt
  | .list (.word head _ :: operands) _ =>
      if head = "fn" then do return .function (← function? operands)
      else if head = "block" then do return .block ⟨← stmts? operands, .nowhere⟩
      else if head = "let" then binding? operands
      else if head = "if" then conditional? operands
      else if head = "while" then loop? operands
      else if head = "return" then ret? operands
      else do return .expression (← operation? head operands)
  | form => do return .expression (← form.atom?)

def binding? : List Form → Option Stmt
  | [.word name declared] => some (.binding name declared none .empty)
  | [.word name declared, init] => do
      return .binding name declared (some (← init.expr?)) .empty
  | _ => none

def conditional? : List Form → Option Stmt
  | [condition, thenBlock] => do
      return .conditional (← condition.expr?) (← thenBlock.block?) none .nowhere
  | [condition, thenBlock, otherwise] => do
      return .conditional (← condition.expr?) (← thenBlock.block?)
        (some (← otherwise.stmt?)) .nowhere
  | _ => none

def loop? : List Form → Option Stmt
  | [condition, body] => do return .loop (← condition.expr?) (← body.block?) .nowhere
  | _ => none

def ret? : List Form → Option Stmt
  | [] => some (.ret none .nowhere)
  | [value] => do return .ret (some (← value.expr?)) .nowhere
  | _ => none

def stmts? : List Form → Option (List Stmt)
  | [] => some []
  | form :: rest => do return (← form.stmt?) :: (← stmts? rest)

def block? : Form → Option Block
  | .list (.word head _ :: statements) _ =>
      if head = "block" then do return ⟨← stmts? statements, .nowhere⟩ else none
  | _ => none

end

end Form

section Texts

theorem toList_parenthesized (words : List String) : (parenthesized words).toList =
    '(' :: ([' '].intercalate (words.map String.toList) ++ [')']) := by
  simp [parenthesized, spaced, String.toList_intercalate]

theorem Form.toList_annotated (name : String) (declared : Option TypeExpr) :
    (TypeExpr.annotated name declared).toList = (Form.word name declared).text := by
  cases declared <;> simp [TypeExpr.annotated, Form.text, behind]

@[simp] theorem Form.text_plain (word : String) : (plain word).text = word.toList := by
  simp [plain, text, behind]

theorem Form.toList_list {words : List String} {items : List Form}
    (h : words.map String.toList = items.map text) :
    (parenthesized words).toList = (list items none).text := by
  simp [toList_parenthesized, h, text, behind]

theorem Literal.toList_sexp (value : Literal) : value.sexp.toList = value.form.text := by
  cases value <;> simp [form, sexp, Form.text]

theorem Param.toList_sexps (params : List Param) :
    (params.map Param.sexp).map String.toList = (params.map Param.form).map Form.text := by
  rw [List.map_map, List.map_map]
  exact List.map_congr_left fun param _ => Form.toList_annotated param.name param.declared

theorem FnDecl.toList_heading (name : String) (params : List Param) (result : Option TypeExpr)
    {body : List String} {forms : List Form} (h : body.map String.toList = forms.map Form.text) :
    (parenthesized (heading name params result ++ body)).toList =
      (Form.list (.plain "fn" :: .plain name :: .list (params.map Param.form) result :: forms)
        none).text := by
  have hparams : (parenthesized (params.map Param.sexp)).toList =
      (Form.list (params.map Param.form) none).text :=
    Form.toList_list (Param.toList_sexps params)
  cases result with
  | none => exact Form.toList_list (by simp [heading, hparams, h])
  | some result =>
      -- the arrow and the type go with the parameters
      have hresult : (Form.list (params.map Param.form) (some result)).text =
          (Form.list (params.map Param.form) none).text ++ (Form.arrow ++ result.sexp.toList) := by
        simp [Form.text, Form.behind]
      rw [toList_parenthesized, Form.text, Form.texts_eq_map]
      simp [heading, Form.intercalate_cons, hparams, hresult, h, Form.arrow, Form.behind]

mutual

theorem Expr.toList_sexp : (expr : Expr) → expr.sexp.toList = expr.form.text
  | .literal value _ => value.toList_sexp
  | .variable name _ => (Form.text_plain name).symm
  | .assign name value _ => Form.toList_list (by simp [value.toList_sexp])
  | .group inner _ => Form.toList_list (by simp [inner.toList_sexp])
  | .unary op operand _ => Form.toList_list (by simp [operand.toList_sexp])
  | .binary op left right _ =>
      Form.toList_list (by simp [left.toList_sexp, right.toList_sexp])
  | .call callee args _ =>
      Form.toList_list (by simp [callee.toList_sexp, Expr.toList_sexps args])
  | .function decl _ => decl.toList_sexp

theorem Expr.toList_sexps : (exprs : List Expr) →
    (Expr.sexps exprs).map String.toList = (Expr.forms exprs).map Form.text
  | [] => rfl
  | expr :: rest => by simp [Expr.sexps, Expr.forms, expr.toList_sexp, Expr.toList_sexps rest]

theorem FnDecl.toList_sexp : (decl : FnDecl) → decl.sexp.toList = decl.form.text
  | ⟨name, _, params, result, body, _⟩ =>
      FnDecl.toList_heading name params result (Stmt.toList_sexps body)

theorem Stmt.toList_sexp : (stmt : Stmt) → stmt.sexp.toList = stmt.form.text
  | .expression expr => expr.toList_sexp
  | .binding name declared none _ =>
      Form.toList_list (by simp [Form.toList_annotated])
  | .binding name declared (some init) _ =>
      Form.toList_list (by simp [Form.toList_annotated, init.toList_sexp])
  | .block block => block.toList_sexp
  | .conditional condition thenBlock none _ => Form.toList_list (by
      simp [condition.toList_sexp, thenBlock.toList_sexp])
  | .conditional condition thenBlock (some otherwise) _ => Form.toList_list (by
      simp [condition.toList_sexp, thenBlock.toList_sexp, otherwise.toList_sexp])
  | .loop condition body _ =>
      Form.toList_list (by simp [condition.toList_sexp, body.toList_sexp])
  | .function decl => decl.toList_sexp
  | .ret none _ => Form.toList_list (by simp)
  | .ret (some value) _ => Form.toList_list (by simp [value.toList_sexp])

theorem Stmt.toList_sexps : (stmts : List Stmt) →
    (Stmt.sexps stmts).map String.toList = (Stmt.forms stmts).map Form.text
  | [] => rfl
  | stmt :: rest => by simp [Stmt.sexps, Stmt.forms, stmt.toList_sexp, Stmt.toList_sexps rest]

theorem Block.toList_sexp : (block : Block) → block.sexp.toList = block.form.text
  | ⟨statements, _⟩ =>
      Form.toList_list (by simp [Stmt.toList_sexps statements])

end

theorem Program.toList_sexp (program : Program) : program.sexp.toList =
    (Stmt.forms program.statements).flatMap fun form => form.text ++ ['\n'] := by
  simp [sexp, String.toList_join, Stmt.forms_eq_map, List.flatMap_map, Stmt.toList_sexp]

end Texts

end Scriptlet
