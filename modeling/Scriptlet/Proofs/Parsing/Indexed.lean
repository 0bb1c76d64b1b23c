import Scriptlet.Syntax.Parse

/-! Parsing by index. All tokens are kept, and a number says which one is next. It is the number of
a token at all times; a step that would make it another one, or that asks for the token before the
first one, ends in a trouble of its own. -/

namespace Scriptlet

structure ClosedTokens where
  all : List Token
  closed : all.getLast?.any (·.kind = .endOfInput)

namespace ClosedTokens

/-- An end is put behind a list that does not end in one. -/
def ofTokens (tokens : List Token) : ClosedTokens :=
  if h : tokens.getLast?.any (·.kind = .endOfInput) then ⟨tokens, h⟩
  else ⟨tokens ++ [Cursor.finishOf tokens], by
    rw [List.getLast?_append, Cursor.finishOf]
    cases tokens.getLast? <;> rfl⟩

/-- The number of the next token, and that of the next function without a name. -/
structure Place (tokens : ClosedTokens) where
  current : Nat
  unnamed : Nat
  valid : current < tokens.all.length

namespace Place

variable {tokens : ClosedTokens}

def next (place : tokens.Place) : Token := tokens.all.get ⟨place.current, place.valid⟩

def before (place : tokens.Place) : Token :=
  tokens.all.get ⟨place.current - 1, Nat.lt_of_le_of_lt (Nat.sub_le _ _) place.valid⟩

end Place

end ClosedTokens

/-- Why a list of tokens comes to no program: because it is none, or because a step goes where no
token is. -/
inductive Trouble where
  | fault (error : ParseError)
  | outOfBounds

abbrev Indexed (tokens : ClosedTokens) := EStateM Trouble tokens.Place

namespace Indexed

variable {tokens : ClosedTokens} {α : Type}

def peek : Indexed tokens Token := fun place => .ok place.next place

def failAt (fault : ParseFault) (span : Span) : Indexed tokens α := throw (.fault ⟨fault, span⟩)

def exhausted : Indexed tokens α := do failAt .exhausted (← peek).span

def move : Indexed tokens Unit := fun place =>
  if h : place.current + 1 < tokens.all.length then .ok () ⟨place.current + 1, place.unnamed, h⟩
  else .error .outOfBounds place

def passed : Indexed tokens Token := fun place =>
  if place.current = 0 then .error .outOfBounds place
  else .ok place.before place

/-- Moves on unless the end is next, and answers the token before. -/
def advance : Indexed tokens Token := do
  if (← peek).kind ≠ .endOfInput then move
  passed

def spanFrom (first : Span) : Indexed tokens Span := fun place =>
  .ok (first.upTo place.before.span) place

def accept (kind : Kind) : Indexed tokens Bool := do
  if (← peek).kind = kind then
    let _ ← advance
    return true
  return false

def expect (kind : Kind) (what : Expected) : Indexed tokens Token := do
  let token ← peek
  if token.kind = kind then advance
  else
    failAt (.expected what (Parse.found token))
      ⟨token.span.offset, max token.span.len 1, token.span.line⟩

def expectName (what : Expected) : Indexed tokens String := do
  return (← expect .identifier what).lexeme

def freshName : Indexed tokens String := fun place =>
  .ok (Parse.unnamedFunction place.unnamed) { place with unnamed := place.unnamed + 1 }

def separated (full : Indexed tokens (List α)) (item : Indexed tokens α) :
    Nat → Indexed tokens (List α)
  | 0 => full
  | room + 1 => do
      let first ← item
      if ← accept .comma then return first :: (← separated full item room)
      return [first]

def separatedUntil (close : Kind) (full : Indexed tokens (List α)) (item : Indexed tokens α)
    (room : Nat) : Indexed tokens (List α) := do
  if (← peek).kind = close then return []
  separated full item room

def many (ends : Kind → Bool) (item : Indexed tokens α) : Nat → Indexed tokens (List α)
  | 0 => exhausted
  | fuel + 1 => do
      if ends (← peek).kind then return []
      let first ← item
      return first :: (← many ends item fuel)

def typeExpr : Nat → Indexed tokens TypeExpr
  | 0 => exhausted
  | fuel + 1 => do
      let start := (← peek).span
      if ← accept .fnWord then
        let _ ← expect .leftParen .typeParametersOpen
        let params ← separatedUntil .rightParen exhausted (typeExpr fuel) fuel
        let _ ← expect .rightParen .typeParametersClose
        let result ← if ← accept .arrow then some <$> typeExpr fuel else pure none
        return .function params result (← spanFrom start)
      else
        return .named (← expectName .typeName) start

def typeExprAfter? (mark : Kind) (fuel : Nat) : Indexed tokens (Option TypeExpr) := do
  if ← accept mark then some <$> typeExpr fuel else return none

def param (fuel : Nat) : Indexed tokens Param := do
  let start := (← peek).span
  let name ← expectName .parameterName
  let declared ← typeExprAfter? .colon fuel
  return ⟨name, declared, ← spanFrom start⟩

def acceptBinary (ops : List BinaryOp) : Indexed tokens (Option BinaryOp) := do
  match BinaryOp.ofKind? (← peek).kind with
  | some op =>
      if op ∈ ops then
        let _ ← advance
        return some op
      return none
  | none => return none

def binaryTail (ops : List BinaryOp) (operand : Indexed tokens Expr) :
    Nat → Expr → Indexed tokens Expr
  | 0, _ => exhausted
  | fuel + 1, left => do
      match ← acceptBinary ops with
      | none => return left
      | some op =>
          let right ← operand
          binaryTail ops operand fuel (.binary op left right ⟨left.span.upTo right.span, none⟩)

def binary (operand : Indexed tokens Expr) (fuel : Nat) : Indexed tokens Expr :=
  BinaryOp.levels.foldr
    (fun ops tighter => do binaryTail ops tighter fuel (← tighter)) operand

def callTail (argument : Indexed tokens Expr) : Nat → Expr → Indexed tokens Expr
  | 0, _ => exhausted
  | fuel + 1, callee => do
      if ← accept .leftParen then
        let full := do failAt .tooManyArguments (← peek).span
        let args ← separatedUntil .rightParen full argument maxArity
        let _ ← expect .rightParen .argumentsClose
        let span ← spanFrom callee.span
        callTail argument fuel (.call callee args ⟨span, none⟩)
      else return callee

def literal (value : Literal) (span : Span) : Indexed tokens Expr :=
  return .literal value ⟨span, none⟩

mutual

def expression : Nat → Indexed tokens Expr
  | 0 => exhausted
  | fuel + 1 => do
      let target ← binary (unary fuel) fuel
      if ← accept .equal then
        let value ← expression fuel
        let span := target.span.upTo value.span
        match target with
        | .variable name _ => return .assign name value ⟨span, none⟩
        | _ => failAt .invalidTarget span
      else return target

def unary : Nat → Indexed tokens Expr
  | 0 => exhausted
  | fuel + 1 => do
      let token ← peek
      match UnaryOp.ofKind? token.kind with
      | some op =>
          let _ ← advance
          let operand ← unary fuel
          return .unary op operand ⟨token.span.upTo operand.span, none⟩
      | none => callTail (expression fuel) fuel (← primary fuel)

def primary : Nat → Indexed tokens Expr
  | 0 => exhausted
  | fuel + 1 => do
      let token ← peek
      match token.kind with
      | .number =>
          let _ ← advance
          match token.payload with
          | some (.number value) => literal (.number value) token.span
          | _ => failAt .malformedNumber token.span
      | .string =>
          let _ ← advance
          match token.payload with
          | some (.text value) => literal (.text value) token.span
          | _ => failAt .malformedString token.span
      | .trueWord =>
          let _ ← advance
          literal (.bool true) token.span
      | .falseWord =>
          let _ ← advance
          literal (.bool false) token.span
      | .identifier =>
          let _ ← advance
          return .variable token.lexeme ⟨token.span, none⟩
      | .leftParen =>
          let _ ← advance
          let inner ← expression fuel
          let _ ← expect .rightParen .groupClose
          return .group inner ⟨← spanFrom token.span, none⟩
      | .fnWord =>
          let _ ← advance
          let decl ← function fuel token.span
          return .function decl ⟨decl.mark.span, none⟩
      | _ => failAt (.expected .expression (Parse.found token)) token.span

def function : Nat → Span → Indexed tokens FnDecl
  | 0, _ => exhausted
  | fuel + 1, start => do
      let token ← peek
      let anonymous := token.kind ≠ .identifier
      let name ← if anonymous then freshName else (·.lexeme) <$> advance
      let _ ← expect .leftParen .parametersOpen
      let full := do failAt .tooManyParameters (← peek).span
      let params ← separatedUntil .rightParen full (param fuel) maxArity
      let _ ← expect .rightParen .parametersClose
      let result ← typeExprAfter? .arrow fuel
      let body ← block fuel
      return ⟨name, anonymous, params, result, body.statements, ⟨← spanFrom start, none⟩⟩

def block : Nat → Indexed tokens Block
  | 0 => exhausted
  | fuel + 1 => do
      let start := (← peek).span
      let _ ← expect .leftBrace .blockOpen
      let statements ← many (fun kind => kind == .rightBrace || kind == .endOfInput)
        (statement fuel) fuel
      let _ ← expect .rightBrace .blockClose
      return ⟨statements, ← spanFrom start⟩

def statement : Nat → Indexed tokens Stmt
  | 0 => exhausted
  | fuel + 1 => do
      let token ← peek
      match token.kind with
      | .letWord =>
          let _ ← advance
          let name ← expectName .bindingName
          let declared ← typeExprAfter? .colon fuel
          let init ← if ← accept .equal then some <$> expression fuel else pure none
          return .binding name declared init ⟨← spanFrom token.span, none⟩
      | .leftBrace => return .block (← block fuel)
      | .ifWord => conditional fuel
      | .whileWord =>
          let _ ← advance
          let condition ← expression fuel
          let body ← block fuel
          return .loop condition body (← spanFrom token.span)
      | .fnWord =>
          let _ ← advance
          return .function (← function fuel token.span)
      | .returnWord =>
          let _ ← advance
          let next := (← peek).kind
          let value ← if next = .rightBrace ∨ next = .endOfInput then pure none
            else some <$> expression fuel
          return .ret value (← spanFrom token.span)
      | _ => return .expression (← expression fuel)

def conditional : Nat → Indexed tokens Stmt
  | 0 => exhausted
  | fuel + 1 => do
      let start := (← advance).span
      let condition ← expression fuel
      let thenBlock ← block fuel
      if ← accept .elseWord then
        let token ← peek
        match token.kind with
        | .ifWord =>
            let otherwise ← conditional fuel
            return .conditional condition thenBlock (some otherwise) (← spanFrom start)
        | .leftBrace =>
            let otherwise ← block fuel
            return .conditional condition thenBlock (some (.block otherwise)) (← spanFrom start)
        | _ => failAt (.expectedElse token.lexeme) token.span
      else return .conditional condition thenBlock none (← spanFrom start)

end

end Indexed

end Scriptlet
