import Scriptlet.Proofs.Grammar.Symbols
import Scriptlet.Proofs.Tree

/-! The grammar as rules about trees. Operators nest by levels, which go from assignments (0)
over equality (1), comparison (2), terms (3), factors (4), unary operators (5) and calls (6) to
what stands for itself (7). Nothing stands between two statements, so a statement that ends in
an expression must not be followed by something that could go on with it. -/

namespace Scriptlet

def BinaryOp.level : BinaryOp → Nat
  | .equal | .notEqual => 1
  | .greater | .greaterEqual | .less | .lessEqual => 2
  | .add | .subtract => 3
  | .multiply | .divide | .floorDivide => 4

theorem BinaryOp.level_pos (op : BinaryOp) : 1 ≤ op.level := by
  cases op <;> decide

theorem BinaryOp.level_le (op : BinaryOp) : op.level ≤ 4 := by
  cases op <;> decide

namespace Expr

def unaryLevel : Nat := 5

def callLevel : Nat := 6

def level : Expr → Nat
  | .assign .. => 0
  | .binary op .. => op.level
  | .unary .. => unaryLevel
  | .call .. => callLevel
  | .literal .. | .variable .. | .group .. | .function .. => 7

end Expr

/-- A number is the reading of some payload. -/
def Literal.IsRead : Literal → Prop
  | .int value => ∃ payload, number payload = .int value
  | .float value => ∃ payload, number payload = .float value
  | .text _ | .bool _ => True

def Stmt.endsInExpr : Stmt → Bool
  | .expression _ | .binding _ _ (some _) _ | .ret (some _) _ => true
  | _ => false

/-- What may stand behind a statement: nothing behind a `return` without a value, and nothing
that could go on with an expression at its end. -/
def Stmt.StopsBefore (stmt : Stmt) (rest : List Stmt) : Prop :=
  (∀ span, stmt = .ret none span → rest = []) ∧
    (stmt.endsInExpr → ∀ next ∈ rest.head?,
      next.symbols.head? ≠ some (.mark .leftParen) ∧ next.symbols.head? ≠ some (.mark .minus))

mutual

def Expr.Grammatical : Expr → Prop
  | .literal value _ => value.IsRead
  | .variable .. => True
  | .assign _ value _ => value.Grammatical
  | .group inner _ => inner.Grammatical
  | .unary _ operand _ => operand.Grammatical ∧ Expr.unaryLevel ≤ operand.level
  | .binary op left right _ =>
      left.Grammatical ∧ right.Grammatical ∧ op.level ≤ left.level ∧ op.level < right.level
  | .call callee args _ =>
      callee.Grammatical ∧ Expr.callLevel ≤ callee.level ∧ Expr.AllGrammatical args ∧
        args.length ≤ maxArity
  | .function decl _ => decl.Grammatical

def Expr.AllGrammatical : List Expr → Prop
  | [] => True
  | expr :: rest => expr.Grammatical ∧ Expr.AllGrammatical rest

def FnDecl.Grammatical : FnDecl → Prop
  | ⟨_, _, params, _, body, _⟩ => params.length ≤ maxArity ∧ Stmt.AllGrammatical body

def Stmt.Grammatical : Stmt → Prop
  | .expression expr => expr.Grammatical ∧ expr.symbols.head? ≠ some (.mark .fnWord)
  | .binding _ _ none _ => True
  | .binding _ _ (some init) _ => init.Grammatical
  | .block block => block.Grammatical
  | .conditional condition thenBlock none _ => condition.Grammatical ∧ thenBlock.Grammatical
  | .conditional condition thenBlock (some otherwise) _ =>
      condition.Grammatical ∧ thenBlock.Grammatical ∧ otherwise.Grammatical ∧ otherwise.isBranch
  | .loop condition body _ => condition.Grammatical ∧ body.Grammatical
  | .function decl => decl.Grammatical
  | .ret none _ => True
  | .ret (some value) _ => value.Grammatical

def Stmt.AllGrammatical : List Stmt → Prop
  | [] => True
  | stmt :: rest => stmt.Grammatical ∧ stmt.StopsBefore rest ∧ Stmt.AllGrammatical rest

def Block.Grammatical : Block → Prop
  | ⟨statements, _⟩ => Stmt.AllGrammatical statements

end

def Program.Grammatical (program : Program) : Prop := Stmt.AllGrammatical program.statements

theorem Expr.allGrammatical_iff {exprs : List Expr} :
    AllGrammatical exprs ↔ ∀ expr ∈ exprs, expr.Grammatical := by
  induction exprs with
  | nil => simp [AllGrammatical]
  | cons expr rest ih => simp [AllGrammatical, ih]

theorem Block.grammatical_iff {block : Block} :
    block.Grammatical ↔ Stmt.AllGrammatical block.statements := by
  cases block
  rfl

theorem Stmt.grammatical_binding {name : String} {declared : Option TypeExpr}
    {init : Option Expr} {mark : Mark} :
    (Stmt.binding name declared init mark).Grammatical ↔ ∀ expr ∈ init, expr.Grammatical := by
  cases init <;> simp [Grammatical]

theorem Stmt.grammatical_conditional {condition : Expr} {thenBlock : Block}
    {otherwise : Option Stmt} {span : Span} :
    (Stmt.conditional condition thenBlock otherwise span).Grammatical ↔
      condition.Grammatical ∧ thenBlock.Grammatical ∧
        ∀ stmt ∈ otherwise, stmt.Grammatical ∧ stmt.isBranch := by
  cases otherwise <;> simp [Grammatical]

/-- Whether a token of the kind ends an expression of the level, instead of going on with it. -/
def Kind.Stops (level : Nat) (kind : Kind) : Prop :=
  (∀ op ∈ BinaryOp.ofKind? kind, op.level < level) ∧
    (level ≤ Expr.callLevel → kind ≠ .leftParen) ∧ (level = 0 → kind ≠ .equal)

instance (level : Nat) (kind : Kind) : Decidable (kind.Stops level) :=
  inferInstanceAs (Decidable (_ ∧ _ ∧ _))

theorem Kind.Stops.mono {level tighter : Nat} {kind : Kind} (h : kind.Stops level)
    (hle : level ≤ tighter) : kind.Stops tighter :=
  ⟨fun op hop => Nat.lt_of_lt_of_le (h.1 op hop) hle, fun htighter => h.2.1 (by omega),
    fun hzero => h.2.2 (by omega)⟩

def Kind.exprStarts : List Kind :=
  [number, string, trueWord, falseWord, identifier, leftParen, minus, bang, fnWord]

def Kind.stmtStarts : List Kind :=
  exprStarts ++ [letWord, leftBrace, ifWord, whileWord, returnWord]

theorem Expr.symbols_start (expr : Expr) :
    ∃ first rest, expr.symbols = first :: rest ∧ first.kind ∈ Kind.exprStarts := by
  cases expr with
  | literal value _ =>
      refine ⟨_, _, rfl, ?_⟩
      cases value with
      | bool value => cases value <;> decide
      | _ => simp [Literal.symbol, Symbol.kind, Kind.exprStarts]
  | «variable» | assign => exact ⟨_, _, rfl, by simp [Symbol.kind, Kind.exprStarts]⟩
  | group => exact ⟨_, _, rfl, by decide⟩
  | unary op _ _ => exact ⟨_, _, rfl, by cases op <;> decide⟩
  | binary _ left _ _ =>
      obtain ⟨first, rest, hleft, hfirst⟩ := left.symbols_start
      exact ⟨first, _, by rw [symbols, hleft, List.cons_append], hfirst⟩
  | call callee _ _ =>
      obtain ⟨first, rest, hcallee, hfirst⟩ := callee.symbols_start
      exact ⟨first, _, by rw [symbols, hcallee, List.cons_append], hfirst⟩
  | function decl _ => exact ⟨_, _, decl.symbols_eq, by decide⟩

theorem Expr.Grammatical.not_unary : {expr : Expr} → expr.Grammatical → callLevel ≤ expr.level →
    ∃ first rest, expr.symbols = first :: rest ∧ UnaryOp.ofKind? first.kind = none
  | .literal value _, _, _ => by
      refine ⟨_, _, rfl, ?_⟩
      cases value with
      | bool value => cases value <;> rfl
      | _ => rfl
  | .variable .., _, _ => ⟨_, _, rfl, rfl⟩
  | .group .., _, _ => ⟨_, _, rfl, rfl⟩
  | .call callee _ _, h, _ => by
      obtain ⟨hcallee, hlevel, _⟩ := h
      obtain ⟨first, rest, hsymbols, hfirst⟩ := hcallee.not_unary hlevel
      exact ⟨first, _, by rw [symbols, hsymbols, List.cons_append], hfirst⟩
  | .function decl _, _, _ => ⟨_, _, decl.symbols_eq, rfl⟩
  | .assign .., _, h => absurd h (by simp [level, callLevel])
  | .unary .., _, h => absurd h (by simp [level, callLevel, unaryLevel])
  | .binary op .., _, h => absurd (Nat.le_trans h op.level_le) (by decide)

theorem Stmt.symbols_start (stmt : Stmt) :
    ∃ first rest, stmt.symbols = first :: rest ∧ first.kind ∈ Kind.stmtStarts := by
  cases stmt with
  | expression expr =>
      obtain ⟨first, rest, hexpr, hfirst⟩ := expr.symbols_start
      exact ⟨first, rest, hexpr, List.mem_append_left _ hfirst⟩
  | block block => exact ⟨_, _, block.symbols_eq, by decide⟩
  | function decl => exact ⟨_, _, decl.symbols_eq, by decide⟩
  | _ => exact ⟨_, _, rfl, by decide⟩

theorem Kind.stops_of_start {kind : Kind} (h : kind ∈ stmtStarts) (hparen : kind ≠ .leftParen)
    (hminus : kind ≠ .minus) : kind.Stops 0 := by
  have hall : ∀ kind ∈ stmtStarts, kind ≠ .leftParen → kind ≠ .minus → kind.Stops 0 := by decide
  exact hall kind h hparen hminus

end Scriptlet
