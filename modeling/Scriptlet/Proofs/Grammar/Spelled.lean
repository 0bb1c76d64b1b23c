import Scriptlet.Proofs.Grammar.Rules

/-! Which tokens spell which tree. A tree is spelled between two cursors: what is left at the
first one begins with the tokens of the tree, and the second one stands behind them. The rules
also say which spans and which made-up names the tree has, and what must not come next. -/

namespace Scriptlet

section Combinators

variable {α : Type} {item other : α → Cursor → Cursor → Prop} {before after : Cursor}

/-- One token of the kind is passed. -/
inductive Passes (kind : Kind) (token : Token) : Cursor → Cursor → Prop
  | intro {rest : List Token} {finish : Token} {passed : Span} {unnamed : Nat}
      (h : token.kind = kind) :
      Passes kind token ⟨token :: rest, finish, passed, unnamed⟩
        ⟨rest, finish, token.span, unnamed⟩

theorem Passes.peek {kind : Kind} {token : Token} {before after : Cursor}
    (h : Passes kind token before after) : before.peek = token := by
  cases h
  rfl

theorem Passes.peek_kind {kind : Kind} {token : Token} {before after : Cursor}
    (h : Passes kind token before after) : before.peek.kind = kind := by
  cases h
  assumption

inductive Listed (item : α → Cursor → Cursor → Prop) : List α → Cursor → Cursor → Prop
  | nil {place : Cursor} : Listed item [] place place
  | one {a : α} {before after : Cursor} (hitem : item a before after) :
      Listed item [a] before after
  | more {a next : α} {rest : List α} {comma : Token} {before first second after : Cursor}
      (hitem : item a before first) (hcomma : Passes .comma comma first second)
      (hrest : Listed item (next :: rest) second after) :
      Listed item (a :: next :: rest) before after

inductive Behind (mark : Kind) (item : α → Cursor → Cursor → Prop) :
    Option α → Cursor → Cursor → Prop
  | absent {place : Cursor} (h : place.peek.kind ≠ mark) : Behind mark item none place place
  | present {a : α} {token : Token} {before middle after : Cursor}
      (hmark : Passes mark token before middle) (hitem : item a middle after) :
      Behind mark item (some a) before after

inductive Sequence (item : α → Cursor → Cursor → Prop) : List α → Cursor → Cursor → Prop
  | nil {place : Cursor} : Sequence item [] place place
  | cons {a : α} {rest : List α} {before middle after : Cursor} (hitem : item a before middle)
      (hrest : Sequence item rest middle after) : Sequence item (a :: rest) before after

theorem Listed.imp {items : List α}
    (h : Listed item items before after) (himp : ∀ {a s t}, item a s t → other a s t) :
    Listed other items before after := by
  induction h with
  | nil => exact .nil
  | one hitem => exact .one (himp hitem)
  | more hitem hcomma _ ih => exact .more (himp hitem) hcomma ih

theorem Behind.imp {mark : Kind} {value : Option α}
    (h : Behind mark item value before after) (himp : ∀ {a s t}, item a s t → other a s t) :
    Behind mark other value before after := by
  cases h with
  | absent hpeek => exact .absent hpeek
  | present hpass hitem => exact .present hpass (himp hitem)

end Combinators

/-- The name of a function is written, or is the next made-up one. -/
inductive Names : Bool → String → Cursor → Cursor → Prop
  | own {token : Token} {before after : Cursor} (h : Passes .identifier token before after) :
      Names false token.lexeme before after
  | fresh {place : Cursor} : Names true (Parse.unnamedFunction place.unnamed) place
      { place with unnamed := place.unnamed + 1 }

theorem Names.anonymous_eq {anonymous : Bool} {name : String} {before after : Cursor}
    (h : Names anonymous name before after) (hnext : after.peek.kind ≠ .identifier) :
    anonymous = decide (before.peek.kind ≠ .identifier) := by
  cases h with
  | own hpass => simp [hpass.peek_kind]
  | fresh => exact (decide_eq_true hnext).symm

inductive TypeExpr.Spelled : TypeExpr → Cursor → Cursor → Prop
  | named {token : Token} {before after : Cursor} (h : Passes .identifier token before after) :
      Spelled (.named token.lexeme token.span) before after
  | function {word opening closing : Token} {params : List TypeExpr} {result : Option TypeExpr}
      {before first second third fourth after : Cursor} (hword : Passes .fnWord word before first)
      (hopening : Passes .leftParen opening first second)
      (hparams : Listed TypeExpr.Spelled params second third)
      (hclosing : Passes .rightParen closing third fourth)
      (hresult : Behind .arrow TypeExpr.Spelled result fourth after) :
      Spelled (.function params result (word.span.upTo after.passed)) before after

inductive Param.Spelled : Param → Cursor → Cursor → Prop
  | intro {name : Token} {declared : Option TypeExpr} {before middle after : Cursor}
      (hname : Passes .identifier name before middle)
      (hdeclared : Behind .colon TypeExpr.Spelled declared middle after) :
      Spelled ⟨name.lexeme, declared, name.span.upTo after.passed⟩ before after

inductive Literal.Spelled : Literal → Token → Cursor → Cursor → Prop
  | number {token : Token} {value : Double} {before after : Cursor}
      (h : Passes .number token before after) (hpayload : token.payload = some (.number value)) :
      Spelled (.number value) token before after
  | text {token : Token} {value : String} {before after : Cursor}
      (h : Passes .string token before after) (hpayload : token.payload = some (.text value)) :
      Spelled (.text value) token before after
  | yes {token : Token} {before after : Cursor} (h : Passes .trueWord token before after) :
      Spelled (.bool true) token before after
  | no {token : Token} {before after : Cursor} (h : Passes .falseWord token before after) :
      Spelled (.bool false) token before after

mutual

inductive Expr.Spelled : Expr → Cursor → Cursor → Prop
  | literal {value : Literal} {token : Token} {before after : Cursor}
      (h : value.Spelled token before after) :
      Expr.Spelled (.literal value ⟨token.span, none⟩) before after
  | variable {token : Token} {before after : Cursor}
      (h : Passes .identifier token before after) :
      Expr.Spelled (.variable token.lexeme ⟨token.span, none⟩) before after
  | assign {name equal : Token} {value : Expr} {before first second after : Cursor}
      (hname : Passes .identifier name before first) (hequal : Passes .equal equal first second)
      (hvalue : value.Spelled second after) :
      Expr.Spelled (.assign name.lexeme value ⟨name.span.upTo value.span, none⟩) before after
  | group {opening closing : Token} {inner : Expr} {before first second after : Cursor}
      (hopening : Passes .leftParen opening before first) (hinner : inner.Spelled first second)
      (hclosing : Passes .rightParen closing second after) :
      Expr.Spelled (.group inner ⟨opening.span.upTo after.passed, none⟩) before after
  | unary {op : UnaryOp} {token : Token} {operand : Expr} {before middle after : Cursor}
      (hop : Passes op.kind token before middle) (hoperand : operand.Spelled middle after)
      (level : Expr.unaryLevel ≤ operand.level) :
      Expr.Spelled (.unary op operand ⟨token.span.upTo operand.span, none⟩) before after
  | binary {op : BinaryOp} {token : Token} {left right : Expr}
      {before first second after : Cursor} (hleft : left.Spelled before first)
      (hop : Passes op.kind token first second) (hright : right.Spelled second after)
      (leftLevel : op.level ≤ left.level) (rightLevel : op.level < right.level) :
      Expr.Spelled (.binary op left right ⟨left.span.upTo right.span, none⟩) before after
  | call {callee : Expr} {opening closing : Token} {args : List Expr}
      {before first second third after : Cursor} (hcallee : callee.Spelled before first)
      (hopening : Passes .leftParen opening first second)
      (hargs : Listed Expr.Spelled args second third)
      (hclosing : Passes .rightParen closing third after)
      (level : Expr.callLevel ≤ callee.level) (arity : args.length ≤ maxArity) :
      Expr.Spelled (.call callee args ⟨callee.span.upTo after.passed, none⟩) before after
  | function {word : Token} {decl : FnDecl} {before middle after : Cursor}
      (hword : Passes .fnWord word before middle) (hdecl : decl.Spelled word.span middle after) :
      Expr.Spelled (.function decl ⟨decl.mark.span, none⟩) before after

/-- What follows the word that begins a function at `start`. -/
inductive FnDecl.Spelled : FnDecl → Span → Cursor → Cursor → Prop
  | intro {start : Span} {anonymous : Bool} {name : String} {params : List Param}
      {result : Option TypeExpr} {body : Block} {opening closing : Token}
      {before first second third fourth fifth after : Cursor}
      (hname : Names anonymous name before first)
      (hopening : Passes .leftParen opening first second)
      (hparams : Listed Param.Spelled params second third)
      (hclosing : Passes .rightParen closing third fourth)
      (hresult : Behind .arrow TypeExpr.Spelled result fourth fifth)
      (hbody : body.Spelled fifth after) (arity : params.length ≤ maxArity) :
      FnDecl.Spelled
        ⟨name, anonymous, params, result, body.statements, ⟨start.upTo after.passed, none⟩⟩
        start before after

inductive Block.Spelled : Block → Cursor → Cursor → Prop
  | intro {opening closing : Token} {statements : List Stmt}
      {before first second after : Cursor} (hopening : Passes .leftBrace opening before first)
      (hstatements : Sequence Stmt.Spelled statements first second)
      (hclosing : Passes .rightBrace closing second after) :
      Block.Spelled ⟨statements, opening.span.upTo after.passed⟩ before after

inductive Stmt.Spelled : Stmt → Cursor → Cursor → Prop
  | expression {expr : Expr} {before after : Cursor} (hexpr : expr.Spelled before after)
      (start : before.peek.kind ≠ .fnWord) (stop : after.peek.kind.Stops 0) :
      Stmt.Spelled (.expression expr) before after
  | binding {word name : Token} {declared : Option TypeExpr} {init : Option Expr}
      {before first second third after : Cursor} (hword : Passes .letWord word before first)
      (hname : Passes .identifier name first second)
      (hdeclared : Behind .colon TypeExpr.Spelled declared second third)
      (hinit : Behind .equal Expr.Spelled init third after)
      (stop : init.isSome → after.peek.kind.Stops 0) :
      Stmt.Spelled (.binding name.lexeme declared init ⟨word.span.upTo after.passed, none⟩)
        before after
  | block {block : Block} {before after : Cursor} (hblock : block.Spelled before after) :
      Stmt.Spelled (.block block) before after
  | conditional {word : Token} {condition : Expr} {thenBlock : Block} {otherwise : Option Stmt}
      {before first second third after : Cursor} (hword : Passes .ifWord word before first)
      (hcondition : condition.Spelled first second) (hthen : thenBlock.Spelled second third)
      (hotherwise : Behind .elseWord Stmt.Spelled otherwise third after)
      (branch : ∀ stmt ∈ otherwise, stmt.isBranch) :
      Stmt.Spelled (.conditional condition thenBlock otherwise (word.span.upTo after.passed))
        before after
  | loop {word : Token} {condition : Expr} {body : Block} {before first second after : Cursor}
      (hword : Passes .whileWord word before first) (hcondition : condition.Spelled first second)
      (hbody : body.Spelled second after) :
      Stmt.Spelled (.loop condition body (word.span.upTo after.passed)) before after
  | function {word : Token} {decl : FnDecl} {before middle after : Cursor}
      (hword : Passes .fnWord word before middle) (hdecl : decl.Spelled word.span middle after) :
      Stmt.Spelled (.function decl) before after
  | finish {word : Token} {before after : Cursor} (hword : Passes .returnWord word before after)
      (stop : after.peek.kind = .rightBrace ∨ after.peek.kind = .endOfInput) :
      Stmt.Spelled (.ret none (word.span.upTo after.passed)) before after
  | ret {word : Token} {value : Expr} {before middle after : Cursor}
      (hword : Passes .returnWord word before middle) (hvalue : value.Spelled middle after)
      (stop : after.peek.kind.Stops 0) :
      Stmt.Spelled (.ret (some value) (word.span.upTo after.passed)) before after

end

end Scriptlet
