import Scriptlet.Syntax
import Scriptlet.Syntax.Cursor

/-! Reading tokens as a program. There is one function for each kind of phrase. A phrase that
contains others passes on one unit of fuel less than it got, and the fuel that a whole list of
tokens gets is enough for every way of nesting its phrases. -/

namespace Scriptlet

def maxArity : Nat := 255

namespace BinaryOp

/-- The operators that lean to the left, loosest first. -/
def levels : List (List BinaryOp) :=
  [[equal, notEqual], [greater, greaterEqual, less, lessEqual], [add, subtract],
    [multiply, divide, floorDivide]]

def ofKind? : Kind → Option BinaryOp
  | .plus => some add
  | .minus => some subtract
  | .star => some multiply
  | .slash => some divide
  | .slashSlash => some floorDivide
  | .equalEqual => some equal
  | .bangEqual => some notEqual
  | .less => some less
  | .lessEqual => some lessEqual
  | .greater => some greater
  | .greaterEqual => some greaterEqual
  | _ => none

end BinaryOp

namespace UnaryOp

def ofKind? : Kind → Option UnaryOp
  | .bang => some not
  | .minus => some negate
  | _ => none

end UnaryOp

namespace Parse

def typeExpr : Nat → Parse TypeExpr
  | 0 => exhausted
  | fuel + 1 => do
      let start := (← peek).span
      if ← accept .fnWord then
        let _ ← expect .leftParen .typeParametersOpen
        let params ← separatedUntil .rightParen exhausted (typeExpr fuel) fuel
        let _ ← expect .rightParen .typeParametersClose
        let result ← if ← accept .arrow then some <$> typeExpr fuel else pure none
        return .function params result (← spanFrom start)
      else
        return .named (← expectName .typeName) start

def typeExprAfter? (mark : Kind) (fuel : Nat) : Parse (Option TypeExpr) := do
  if ← accept mark then some <$> typeExpr fuel else return none

def param (fuel : Nat) : Parse Param := do
  let start := (← peek).span
  let name ← expectName .parameterName
  let declared ← typeExprAfter? .colon fuel
  return ⟨name, declared, ← spanFrom start⟩

def acceptBinary (ops : List BinaryOp) : Parse (Option BinaryOp) := do
  match BinaryOp.ofKind? (← peek).kind with
  | some op =>
      if op ∈ ops then
        let _ ← advance
        return some op
      return none
  | none => return none

def binaryTail (ops : List BinaryOp) (operand : Parse Expr) : Nat → Expr → Parse Expr
  | 0, _ => exhausted
  | fuel + 1, left => do
      match ← acceptBinary ops with
      | none => return left
      | some op =>
          let right ← operand
          binaryTail ops operand fuel (.binary op left right ⟨left.span.upTo right.span, none⟩)

def binary (operand : Parse Expr) (fuel : Nat) : Parse Expr :=
  BinaryOp.levels.foldr
    (fun ops tighter => do binaryTail ops tighter fuel (← tighter)) operand

def callTail (argument : Parse Expr) : Nat → Expr → Parse Expr
  | 0, _ => exhausted
  | fuel + 1, callee => do
      if ← accept .leftParen then
        let full := do failAt .tooManyArguments (← peek).span
        let args ← separatedUntil .rightParen full argument maxArity
        let _ ← expect .rightParen .argumentsClose
        let span ← spanFrom callee.span
        callTail argument fuel (.call callee args ⟨span, none⟩)
      else return callee

def literal (value : Literal) (span : Span) : Parse Expr :=
  return .literal value ⟨span, none⟩

mutual

def expression : Nat → Parse Expr
  | 0 => exhausted
  | fuel + 1 => do
      let target ← binary (unary fuel) fuel
      if ← accept .equal then
        let value ← expression fuel
        let span := target.span.upTo value.span
        match target with
        | .variable name _ => return .assign name value ⟨span, none⟩
        | _ => failAt .invalidTarget span
      else return target

def unary : Nat → Parse Expr
  | 0 => exhausted
  | fuel + 1 => do
      let token ← peek
      match UnaryOp.ofKind? token.kind with
      | some op =>
          let _ ← advance
          let operand ← unary fuel
          return .unary op operand ⟨token.span.upTo operand.span, none⟩
      | none => callTail (expression fuel) fuel (← primary fuel)

def primary : Nat → Parse Expr
  | 0 => exhausted
  | fuel + 1 => do
      let token ← peek
      match token.kind with
      | .number =>
          let _ ← advance
          match token.payload with
          | some (.number value) => literal (.number value) token.span
          | _ => failAt .malformedNumber token.span
      | .string =>
          let _ ← advance
          match token.payload with
          | some (.text value) => literal (.text value) token.span
          | _ => failAt .malformedString token.span
      | .trueWord =>
          let _ ← advance
          literal (.bool true) token.span
      | .falseWord =>
          let _ ← advance
          literal (.bool false) token.span
      | .identifier =>
          let _ ← advance
          return .variable token.lexeme ⟨token.span, none⟩
      | .leftParen =>
          let _ ← advance
          let inner ← expression fuel
          let _ ← expect .rightParen .groupClose
          return .group inner ⟨← spanFrom token.span, none⟩
      | .fnWord =>
          let _ ← advance
          let decl ← function fuel token.span
          return .function decl ⟨decl.mark.span, none⟩
      | _ => failAt (.expected .expression (found token)) token.span

/-- What follows the word that begins a function at `start`. -/
def function : Nat → Span → Parse FnDecl
  | 0, _ => exhausted
  | fuel + 1, start => do
      let token ← peek
      let anonymous := token.kind ≠ .identifier
      let name ← if anonymous then freshName else (·.lexeme) <$> advance
      let _ ← expect .leftParen .parametersOpen
      let full := do failAt .tooManyParameters (← peek).span
      let params ← separatedUntil .rightParen full (param fuel) maxArity
      let _ ← expect .rightParen .parametersClose
      let result ← typeExprAfter? .arrow fuel
      let body ← block fuel
      return ⟨name, anonymous, params, result, body.statements, ⟨← spanFrom start, none⟩⟩

def block : Nat → Parse Block
  | 0 => exhausted
  | fuel + 1 => do
      let start := (← peek).span
      let _ ← expect .leftBrace .blockOpen
      let statements ← many (fun kind => kind == .rightBrace || kind == .endOfInput)
        (statement fuel) fuel
      let _ ← expect .rightBrace .blockClose
      return ⟨statements, ← spanFrom start⟩

def statement : Nat → Parse Stmt
  | 0 => exhausted
  | fuel + 1 => do
      let token ← peek
      match token.kind with
      | .letWord =>
          let _ ← advance
          let name ← expectName .bindingName
          let declared ← typeExprAfter? .colon fuel
          let init ← if ← accept .equal then some <$> expression fuel else pure none
          return .binding name declared init ⟨← spanFrom token.span, none⟩
      | .leftBrace => return .block (← block fuel)
      | .ifWord => conditional fuel
      | .whileWord =>
          let _ ← advance
          let condition ← expression fuel
          let body ← block fuel
          return .loop condition body (← spanFrom token.span)
      | .fnWord =>
          let _ ← advance
          return .function (← function fuel token.span)
      | .returnWord =>
          let _ ← advance
          let next := (← peek).kind
          let value ← if next = .rightBrace ∨ next = .endOfInput then pure none
            else some <$> expression fuel
          return .ret value (← spanFrom token.span)
      | _ => return .expression (← expression fuel)

def conditional : Nat → Parse Stmt
  | 0 => exhausted
  | fuel + 1 => do
      let start := (← advance).span
      let condition ← expression fuel
      let thenBlock ← block fuel
      if ← accept .elseWord then
        let token ← peek
        match token.kind with
        | .ifWord =>
            let otherwise ← conditional fuel
            return .conditional condition thenBlock (some otherwise) (← spanFrom start)
        | .leftBrace =>
            let otherwise ← block fuel
            return .conditional condition thenBlock (some (.block otherwise)) (← spanFrom start)
        | _ => failAt (.expectedElse token.lexeme) token.span
      else return .conditional condition thenBlock none (← spanFrom start)

end

end Parse

/-- Each token can open at most a fixed number of phrases inside one another. -/
def parseFuel (tokens : List Token) : Nat := 8 * (tokens.length + 1)

/-- A program, or the first error, and the number of the next function without a name. -/
structure Parsed where
  result : Except ParseError Program
  unnamed : Nat

def Program.ofTokens (tokens : List Token) (unnamed : Nat) : Parsed :=
  let fuel := parseFuel tokens
  let statements := Parse.many (· == .endOfInput) (Parse.statement fuel) fuel
  match statements (.ofTokens tokens unnamed) with
  | .ok statements cursor => ⟨.ok ⟨statements⟩, cursor.unnamed⟩
  | .error e cursor => ⟨.error e, cursor.unnamed⟩

end Scriptlet
