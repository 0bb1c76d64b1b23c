import Scriptlet.Proofs.Tree.Relabel
import Scriptlet.Syntax.Parse

/-! Trees written out. A symbol is what a program is made of once places are left aside: a token
with its name, number or text, but without its span. -/

namespace Scriptlet

inductive Symbol where
  | mark (kind : Kind)
  | name (text : String)
  | number (value : Literal)
  | text (value : String)
deriving DecidableEq

def Symbol.kind : Symbol → Kind
  | mark kind => kind
  | name _ => .identifier
  | number _ => .number
  | text _ => .string

/-- What a token stands for. A number or a text needs a payload that fits. -/
def Token.symbol (token : Token) : Symbol :=
  match token.kind, token.payload with
  | .identifier, _ => .name token.lexeme
  | .number, some (.number value) => .number (.number value)
  | .string, some (.text value) => .text value
  | kind, _ => .mark kind

@[simp] theorem Token.kind_symbol (token : Token) : token.symbol.kind = token.kind := by
  unfold symbol
  split <;> simp_all [Symbol.kind]

def BinaryOp.kind : BinaryOp → Kind
  | .add => .plus
  | .subtract => .minus
  | .multiply => .star
  | .divide => .slash
  | .floorDivide => .slashSlash
  | .equal => .equalEqual
  | .notEqual => .bangEqual
  | .less => .less
  | .lessEqual => .lessEqual
  | .greater => .greater
  | .greaterEqual => .greaterEqual

theorem BinaryOp.ofKind?_eq_some_iff {kind : Kind} {op : BinaryOp} :
    ofKind? kind = some op ↔ kind = op.kind := by
  cases op <;> cases kind <;> simp [ofKind?, BinaryOp.kind]

def UnaryOp.kind : UnaryOp → Kind
  | .negate => .minus
  | .not => .bang

theorem UnaryOp.ofKind?_eq_some_iff {kind : Kind} {op : UnaryOp} :
    ofKind? kind = some op ↔ kind = op.kind := by
  cases op <;> cases kind <;> simp [ofKind?, UnaryOp.kind]

namespace Symbol

def separated : List (List Symbol) → List Symbol
  | [] => []
  | [piece] => piece
  | piece :: next :: rest => piece ++ .mark .comma :: separated (next :: rest)

def after (kind : Kind) : Option (List Symbol) → List Symbol
  | none => []
  | some piece => .mark kind :: piece

def listed (pieces : List (List Symbol)) : List Symbol :=
  .mark .leftParen :: (separated pieces ++ [.mark .rightParen])

def braced (inside : List Symbol) : List Symbol :=
  .mark .leftBrace :: (inside ++ [.mark .rightBrace])

end Symbol

mutual

def TypeExpr.symbols : TypeExpr → List Symbol
  | .named name _ => [.name name]
  | .function params result _ =>
      .mark .fnWord :: (Symbol.listed (TypeExpr.allSymbols params) ++
        Symbol.after .arrow (TypeExpr.symbols? result))

def TypeExpr.allSymbols : List TypeExpr → List (List Symbol)
  | [] => []
  | written :: rest => written.symbols :: TypeExpr.allSymbols rest

def TypeExpr.symbols? : Option TypeExpr → Option (List Symbol)
  | none => none
  | some written => some written.symbols

end

def Param.symbols (param : Param) : List Symbol :=
  .name param.name :: Symbol.after .colon (param.declared.map TypeExpr.symbols)

def Literal.symbol : Literal → Symbol
  | .int value => .number (.int value)
  | .float value => .number (.float value)
  | .text value => .text value
  | .bool true => .mark .trueWord
  | .bool false => .mark .falseWord

mutual

def Expr.symbols : Expr → List Symbol
  | .literal value _ => [value.symbol]
  | .variable name _ => [.name name]
  | .assign name value _ => .name name :: .mark .equal :: value.symbols
  | .group inner _ => .mark .leftParen :: (inner.symbols ++ [.mark .rightParen])
  | .unary op operand _ => .mark op.kind :: operand.symbols
  | .binary op left right _ => left.symbols ++ .mark op.kind :: right.symbols
  | .call callee args _ => callee.symbols ++ Symbol.listed (Expr.allSymbols args)
  | .function decl _ => decl.symbols

def Expr.allSymbols : List Expr → List (List Symbol)
  | [] => []
  | expr :: rest => expr.symbols :: Expr.allSymbols rest

def Expr.symbols? : Option Expr → Option (List Symbol)
  | none => none
  | some expr => some expr.symbols

/-- A made-up name is not written. -/
def FnDecl.symbols : FnDecl → List Symbol
  | ⟨name, anonymous, params, result, body, _⟩ =>
      .mark .fnWord :: ((if anonymous then [] else [.name name]) ++
        (Symbol.listed (params.map Param.symbols) ++
          (Symbol.after .arrow (result.map TypeExpr.symbols) ++
            Symbol.braced (Stmt.allSymbols body))))

def Stmt.symbols : Stmt → List Symbol
  | .expression expr => expr.symbols
  | .binding name declared init _ =>
      .mark .letWord :: .name name :: (Symbol.after .colon (declared.map TypeExpr.symbols) ++
        Symbol.after .equal (Expr.symbols? init))
  | .block block => block.symbols
  | .conditional condition thenBlock otherwise _ =>
      .mark .ifWord :: (condition.symbols ++
        (thenBlock.symbols ++ Symbol.after .elseWord (Stmt.symbols? otherwise)))
  | .loop condition body _ => .mark .whileWord :: (condition.symbols ++ body.symbols)
  | .function decl => decl.symbols
  | .ret value _ => .mark .returnWord :: (Expr.symbols? value).getD []

def Stmt.allSymbols : List Stmt → List Symbol
  | [] => []
  | stmt :: rest => stmt.symbols ++ Stmt.allSymbols rest

def Stmt.symbols? : Option Stmt → Option (List Symbol)
  | none => none
  | some stmt => some stmt.symbols

def Block.symbols : Block → List Symbol
  | ⟨statements, _⟩ => Symbol.braced (Stmt.allSymbols statements)

end

def Program.symbols (program : Program) : List Symbol := Stmt.allSymbols program.statements

theorem FnDecl.symbols_eq (decl : FnDecl) : decl.symbols =
    .mark .fnWord :: ((if decl.anonymous then [] else [.name decl.name]) ++
      (Symbol.listed (decl.params.map Param.symbols) ++
        (Symbol.after .arrow (decl.result.map TypeExpr.symbols) ++
          Symbol.braced (Stmt.allSymbols decl.body)))) := by
  cases decl
  rfl

theorem Block.symbols_eq (block : Block) :
    block.symbols = Symbol.braced (Stmt.allSymbols block.statements) := by
  cases block
  rfl

@[simp] theorem TypeExpr.allSymbols_eq_map (written : List TypeExpr) :
    allSymbols written = written.map symbols := by
  induction written with
  | nil => rfl
  | cons first rest ih => simp [allSymbols, ih]

@[simp] theorem TypeExpr.symbols?_eq_map (written : Option TypeExpr) :
    symbols? written = written.map symbols := by
  cases written <;> rfl

@[simp] theorem Expr.allSymbols_eq_map (exprs : List Expr) :
    allSymbols exprs = exprs.map symbols := by
  induction exprs with
  | nil => rfl
  | cons expr rest ih => simp [allSymbols, ih]

@[simp] theorem Expr.symbols?_eq_map (expr : Option Expr) :
    symbols? expr = expr.map symbols := by
  cases expr <;> rfl

@[simp] theorem Stmt.symbols?_eq_map (stmt : Option Stmt) :
    symbols? stmt = stmt.map symbols := by
  cases stmt <;> rfl

end Scriptlet
