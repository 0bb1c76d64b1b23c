import Scriptlet.Proofs.Parsing.Complete
import Scriptlet.Proofs.Parsing.Sound

/-! Fuel lasts. Whatever the tokens are, phrases inside one another, the operands of an operator and
the items of a list pass tokens all the time, so fuel that is counted against the tokens that are
left is never used up. -/

namespace Scriptlet

namespace Parse

variable {α β : Type}

/-- The parser does not run out of fuel, on lists that end in an end. -/
def Lasts (parse : Parse α) (place : Cursor) : Prop :=
  place.finish.kind = .endOfInput → ∀ e after, parse place = .error e after → e.fault ≠ .exhausted

section Rules

variable {place : Cursor} {kind : Kind}

theorem lasts_of_ok {parse : Parse α} {value : α} {after : Cursor}
    (h : parse place = .ok value after) : parse.Lasts place := by
  intro _ e last heq
  rw [h] at heq
  cases heq

theorem lasts_pure {value : α} : (pure value : Parse α).Lasts place := lasts_of_ok rfl

theorem lasts_failAt (fault : ParseFault) (span : Span)
    (h : fault ≠ .exhausted := by simp) : (failAt fault span : Parse α).Lasts place := by
  intro _ e after heq
  cases heq
  exact h

theorem lasts_bind {parse : Parse α} {next : α → Parse β} (h : parse.Lasts place)
    (hnext : parse.Finds place fun value middle => (next value).Lasts middle) :
    (parse >>= next).Lasts place := by
  intro hfinish e after heq
  simp only [bind, EStateM.bind] at heq
  split at heq
  · rename_i value middle hmiddle
    obtain ⟨hkeep, hlasts⟩ := hnext hfinish value middle hmiddle
    exact hlasts (hkeep ▸ hfinish) e after heq
  · rename_i hfails
    cases heq
    exact h hfinish _ _ hfails

theorem lasts_map {parse : Parse α} {f : α → β} (h : parse.Lasts place) :
    (f <$> parse).Lasts place := by
  intro hfinish e after heq
  simp only [Functor.map, EStateM.map] at heq
  split at heq
  · cases heq
  · rename_i hfails
    cases heq
    exact h hfinish _ _ hfails

theorem lasts_return {parse : Parse α} {f : α → β} (h : parse.Lasts place) :
    (parse >>= fun value => pure (f value)).Lasts place := by
  rw [← map_eq_pure_bind]
  exact lasts_map h

theorem lasts_ite {condition : Prop} [Decidable condition] {first second : Parse α}
    (hfirst : condition → first.Lasts place) (hsecond : ¬condition → second.Lasts place) :
    (if condition then first else second).Lasts place := by
  split
  · exact hfirst ‹_›
  · exact hsecond ‹_›

theorem lasts_peek {next : Token → Parse β} (h : (next place.peek).Lasts place) :
    (peek >>= next).Lasts place := lasts_bind (lasts_of_ok rfl) (finds_peek h)

theorem lasts_spanFrom {first : Span} {next : Span → Parse β}
    (h : (next (first.upTo place.passed)).Lasts place) : (spanFrom first >>= next).Lasts place :=
  lasts_bind (lasts_of_ok rfl) (finds_spanFrom h)

theorem lasts_step : advance.Lasts place := by
  obtain ⟨rest, finish, passed, unnamed⟩ := place
  cases rest <;> exact lasts_of_ok rfl

theorem lasts_advance {next : Token → Parse β} (hkind : kind ≠ .endOfInput)
    (hpeek : place.peek.kind = kind)
    (h : ∀ after, Passes kind place.peek place after → (next place.peek).Lasts after) :
    (advance >>= next).Lasts place := lasts_bind lasts_step (finds_advance hkind hpeek h)

theorem lasts_accept {next : Bool → Parse β} (hkind : kind ≠ .endOfInput)
    (hyes : ∀ token after, Passes kind token place after → (next true).Lasts after)
    (hno : place.peek.kind ≠ kind → (next false).Lasts place) :
    (accept kind >>= next).Lasts place := by
  refine lasts_bind ?_ (finds_accept hkind hyes hno)
  refine lasts_peek (lasts_ite (fun hpeek => ?_) fun _ => lasts_pure)
  exact lasts_advance hkind hpeek fun _ _ => lasts_pure

theorem lasts_expect {what : Expected} {next : Token → Parse β} (hkind : kind ≠ .endOfInput)
    (h : ∀ token after, Passes kind token place after → (next token).Lasts after) :
    (expect kind what >>= next).Lasts place := by
  refine lasts_bind ?_ (finds_expect hkind h)
  exact lasts_peek (lasts_ite (fun _ => lasts_step) fun _ => lasts_failAt _ _)

theorem lasts_expectName {what : Expected} {next : String → Parse β}
    (h : ∀ token after, Passes .identifier token place after → (next token.lexeme).Lasts after) :
    (expectName what >>= next).Lasts place := by
  refine lasts_bind ?_ (finds_expectName h)
  exact lasts_expect (by decide) fun _ _ _ => lasts_pure

theorem lasts_failHere (fault : ParseFault) (h : fault ≠ .exhausted := by simp) :
    (do failAt fault (← peek).span : Parse α).Lasts place := lasts_peek (lasts_failAt _ _ h)

theorem lasts_name {next : String → Parse β}
    (h : ∀ name after, Names (place.peek.kind ≠ .identifier) name place after →
      (next name).Lasts after) :
    Lasts (if place.peek.kind ≠ .identifier then freshName >>= next
      else (·.lexeme) <$> advance >>= next) place := by
  refine lasts_ite (fun hkind => ?_) fun hkind => ?_
  · refine lasts_bind (lasts_of_ok rfl) (finds_freshName (h _ _ ?_))
    simpa [hkind] using Names.fresh
  · have hkind := Decidable.of_not_not hkind
    refine lasts_bind (lasts_map lasts_step) ?_
    refine finds_map (finds_advance (by decide) hkind fun after hpass => h _ _ ?_)
    simpa [hkind] using Names.own hpass

end Rules

section Lists

variable {parse : Parse α} {place : Cursor} {room : Nat}

def Advances (parse : Parse α) : Prop :=
  ∀ place, parse.Finds place fun _ after => after.left < place.left

/-- There is room for as many items as there are tokens left, or else another fault takes over. -/
theorem lasts_separated {full : Parse (List α)} (hadvances : parse.Advances)
    (h : ∀ after : Cursor, after.left ≤ place.left → parse.Lasts after)
    (hroom : place.left < room ∨ ∀ after, full.Lasts after) :
    (separated full parse room).Lasts place := by
  induction room generalizing place with
  | zero => exact hroom.elim (fun hlt => absurd hlt (Nat.not_lt_zero _)) (· place)
  | succ room ih =>
      refine lasts_bind (h place (Nat.le_refl _)) ((hadvances place).mono ?_)
      intro first middle hless
      refine lasts_accept (by decide) (fun comma after hcomma => ?_) fun _ => lasts_pure
      have hleft := hcomma.left
      exact lasts_return (ih (fun last hle => h last (by omega)) (hroom.imp_left (by omega)))

theorem lasts_separatedUntil {close : Kind} {full : Parse (List α)} (hadvances : parse.Advances)
    (h : ∀ after : Cursor, after.left ≤ place.left → parse.Lasts after)
    (hroom : place.left < room ∨ ∀ after, full.Lasts after) :
    (separatedUntil close full parse room).Lasts place :=
  lasts_peek (lasts_ite (fun _ => lasts_pure) fun _ => lasts_separated hadvances h hroom)

theorem lasts_many {ends : Kind → Bool} (hadvances : parse.Advances)
    (h : ∀ after : Cursor, after.left ≤ place.left → parse.Lasts after)
    (hroom : place.left < room) : (many ends parse room).Lasts place := by
  induction room generalizing place with
  | zero => exact absurd hroom (Nat.not_lt_zero _)
  | succ room ih =>
      refine lasts_peek (lasts_ite (fun _ => lasts_pure) fun _ => ?_)
      refine lasts_bind (h place (Nat.le_refl _)) ((hadvances place).mono ?_)
      intro first middle hless
      exact lasts_return (ih (fun last hle => h last (by omega)) (by omega))

theorem lasts_behind {item : α → Cursor → Cursor → Prop} {mark : Kind} {next : Option α → Parse β}
    (hmark : mark ≠ .endOfInput) (hitem : ∀ place, parse.Finds place (item · place))
    (hparse : ∀ token after, Passes mark token place after → parse.Lasts after)
    (h : ∀ value after, Behind mark item value place after → (next value).Lasts after) :
    Lasts (accept mark >>= fun given =>
      if given then (some <$> parse) >>= next else pure none >>= next) place := by
  refine lasts_accept hmark (fun token middle hpass => ?_) fun hpeek => ?_
  · refine lasts_bind (lasts_map (hparse token middle hpass)) (finds_map ?_)
    exact (hitem middle).mono fun value after hvalue => h _ after (.present hpass hvalue)
  · exact lasts_bind lasts_pure (finds_pure (h none place (.absent hpeek)))

end Lists

section Types

variable {place : Cursor} {fuel : Nat}

theorem typeExpr_advances (fuel : Nat) : (typeExpr fuel).Advances :=
  fun place => (typeExpr_spelled fuel place).mono fun _ _ h => h.start.2

theorem typeExpr_lasts : (fuel : Nat) → (place : Cursor) → 8 * place.left + 1 ≤ fuel →
    (typeExpr fuel).Lasts place
  | 0, _, hfuel => absurd hfuel (Nat.not_succ_le_zero _)
  | fuel + 1, place, hfuel => by
      refine lasts_peek (lasts_accept (by decide) (fun word first hword => ?_) fun _ => ?_)
      · have hleft := hword.left
        refine lasts_expect (by decide) fun opening second hopening => ?_
        have hleft' := hopening.left
        refine lasts_bind (lasts_separatedUntil (typeExpr_advances fuel)
          (fun after hle => typeExpr_lasts fuel after (by omega)) (.inl (by omega))) ?_
        refine (finds_separatedUntil (typeExpr_spelled fuel)
          (fun _ _ => finds_exhausted) fuel).mono ?_
        rintro params third ⟨_, hparams⟩
        have hless := items_left (types_items hparams)
        refine lasts_expect (by decide) fun closing fourth hclosing => ?_
        have hleft'' := hclosing.left
        refine lasts_behind (by decide) (typeExpr_spelled fuel) (fun arrow fifth harrow => ?_)
          fun result after _ => lasts_spanFrom lasts_pure
        have hleft''' := harrow.left
        exact typeExpr_lasts fuel fifth (by omega)
      · exact lasts_expectName fun _ _ _ => lasts_pure

theorem typeExprAfter?_lasts {mark : Kind} (hmark : mark ≠ .endOfInput)
    (hfuel : 8 * place.left ≤ fuel) : (typeExprAfter? mark fuel).Lasts place := by
  refine lasts_accept hmark (fun token after hpass => ?_) fun _ => lasts_pure
  have hleft := hpass.left
  exact lasts_map (typeExpr_lasts fuel after (by omega))

theorem param_advances (fuel : Nat) : (param fuel).Advances :=
  fun place => (param_spelled fuel place).mono fun _ _ h => (param_item h).shorter

theorem param_lasts (hfuel : 8 * place.left ≤ fuel) : (param fuel).Lasts place := by
  refine lasts_peek (lasts_expectName fun name middle hname => ?_)
  have hleft := hname.left
  refine lasts_bind (typeExprAfter?_lasts (by decide) (by omega)) ?_
  exact (typeExprAfter?_spelled (by decide) fuel middle).mono fun _ _ _ =>
    lasts_spanFrom lasts_pure

end Types

section Operators

variable {place : Cursor} {operand argument : Parse Expr} {ops : List BinaryOp} {fuel : Nat}

theorem lasts_acceptBinary {next : Option BinaryOp → Parse β}
    (hsome : ∀ op token after, op ∈ ops → Passes op.kind token place after →
      (next (some op)).Lasts after)
    (hnone : (next none).Lasts place) : (acceptBinary ops >>= next).Lasts place := by
  refine lasts_bind (lasts_peek ?_) (finds_acceptBinary hsome fun _ => hnone)
  split
  · rename_i op hop
    have hkind := BinaryOp.ofKind?_eq_some_iff.mp hop
    refine lasts_ite (fun hmem => ?_) fun _ => lasts_pure
    exact lasts_advance (by cases op <;> decide) hkind fun _ _ => lasts_pure
  · exact lasts_pure

theorem binaryTail_left (hadvances : operand.Advances) : (fuel : Nat) → (left : Expr) →
    (place : Cursor) →
    (binaryTail ops operand fuel left).Finds place fun _ after => after.left ≤ place.left
  | 0, _, _ => finds_exhausted
  | fuel + 1, left, place => by
      refine finds_bind (finds_acceptBinary (fun op token middle _ hpass => ?_) fun _ => ?_)
      · have hleft := hpass.left
        refine finds_bind ((hadvances middle).mono fun right next hless => ?_)
        exact (binaryTail_left hadvances fuel _ next).mono fun _ _ hle => by omega
      · exact finds_pure (Nat.le_refl _)

theorem binaryTail_lasts (hadvances : operand.Advances) {left : Expr}
    (h : ∀ after : Cursor, after.left ≤ place.left → operand.Lasts after)
    (hfuel : place.left < fuel) : (binaryTail ops operand fuel left).Lasts place := by
  induction fuel generalizing place left with
  | zero => exact absurd hfuel (Nat.not_lt_zero _)
  | succ fuel ih =>
      refine lasts_acceptBinary (fun op token middle _ hpass => ?_) lasts_pure
      have hleft := hpass.left
      refine lasts_bind (h middle (by omega)) ((hadvances middle).mono fun right next hless => ?_)
      exact ih (fun after hle => h after (by omega)) (by omega)

theorem levels_last (hadvances : operand.Advances)
    (h : ∀ after : Cursor, after.left ≤ place.left → operand.Lasts after)
    (hfuel : place.left < fuel) (levels : List (List BinaryOp)) :
    let tighter : Parse Expr :=
      levels.foldr (fun ops tighter => do binaryTail ops tighter fuel (← tighter)) operand
    tighter.Advances ∧ ∀ after : Cursor, after.left ≤ place.left → tighter.Lasts after := by
  induction levels with
  | nil => exact ⟨hadvances, h⟩
  | cons ops levels ih =>
      obtain ⟨hadvances, hlasts⟩ := ih
      refine ⟨fun place => finds_bind ((hadvances place).mono fun left middle hless => ?_),
        fun after hle => ?_⟩
      · exact (binaryTail_left hadvances fuel left middle).mono fun _ _ hle => by omega
      · refine lasts_bind (hlasts after hle) ((hadvances after).mono fun left middle hless => ?_)
        exact binaryTail_lasts hadvances (fun last hle => hlasts last (by omega)) (by omega)

theorem binary_lasts (hadvances : operand.Advances)
    (h : ∀ after : Cursor, after.left ≤ place.left → operand.Lasts after)
    (hfuel : place.left < fuel) : (binary operand fuel).Lasts place :=
  (levels_last hadvances h hfuel BinaryOp.levels).2 place (Nat.le_refl _)

theorem callTail_lasts
    (hspelled : ∀ place, argument.Finds place fun e after => e.Spelled place after) {callee : Expr}
    (h : ∀ after : Cursor, after.left ≤ place.left → argument.Lasts after)
    (hfuel : place.left < fuel) : (callTail argument fuel callee).Lasts place := by
  have hadvances : argument.Advances :=
    fun place => (hspelled place).mono fun _ _ h => h.start.2
  induction fuel generalizing place callee with
  | zero => exact absurd hfuel (Nat.not_lt_zero _)
  | succ fuel ih =>
      refine lasts_accept (by decide) (fun opening second hopening => ?_) fun _ => lasts_pure
      have hleft := hopening.left
      refine lasts_bind (lasts_separatedUntil hadvances (fun after hle => h after (by omega))
        (.inr fun _ => lasts_failHere .tooManyArguments)) ?_
      refine (finds_separatedUntil hspelled
        (fun _ _ => finds_bind (finds_peek (finds_failAt _ _))) maxArity).mono ?_
      rintro args third ⟨_, hargs⟩
      have hless := (hargs.imp fun h => h.written.2).takes.left
      refine lasts_expect (by decide) fun closing after hclosing => lasts_spanFrom ?_
      have hleft' := hclosing.left
      exact ih (fun last hle => h last (by omega)) (by omega)

end Operators

/-- Phrases that get this fuel at a place where it is enough. Each kind needs as much more than the
tokens left as phrases of other kinds can begin at the same token. -/
structure LastsAt (fuel : Nat) : Prop where
  expression : ∀ place : Cursor, 8 * place.left + 3 ≤ fuel → (expression fuel).Lasts place
  unary : ∀ place : Cursor, 8 * place.left + 2 ≤ fuel → (unary fuel).Lasts place
  primary : ∀ place : Cursor, 8 * place.left + 1 ≤ fuel → (primary fuel).Lasts place
  function : ∀ start, ∀ place : Cursor, 8 * place.left + 1 ≤ fuel →
    (function fuel start).Lasts place
  block : ∀ place : Cursor, 8 * place.left + 1 ≤ fuel → (block fuel).Lasts place
  statement : ∀ place : Cursor, 8 * place.left + 4 ≤ fuel → (statement fuel).Lasts place
  conditional : ∀ place : Cursor, place.peek.kind = .ifWord → 8 * place.left + 1 ≤ fuel →
    (conditional fuel).Lasts place

section Steps

variable {fuel : Nat} {place : Cursor}

theorem expression_spelled (fuel : Nat) (place : Cursor) :
    (expression fuel).Finds place fun expr after => expr.Spelled place after :=
  ((spelledAt fuel).expression place).mono fun _ _ h => h.1

theorem unary_advances (fuel : Nat) : (unary fuel).Advances :=
  fun place => ((spelledAt fuel).unary place).mono fun _ _ h => h.1.start.2

theorem statement_advances (fuel : Nat) : (statement fuel).Advances :=
  fun place => ((spelledAt fuel).statement place).mono fun _ _ h => h.start.2

theorem expression_lasts (ih : LastsAt fuel) (hfuel : 8 * place.left + 3 ≤ fuel + 1) :
    (expression (fuel + 1)).Lasts place := by
  refine lasts_bind (binary_lasts (unary_advances fuel)
    (fun after hle => ih.unary after (by omega)) (by omega)) ?_
  refine (levels_complete (spelledAt fuel).unary fuel place).mono ?_
  rintro target first ⟨htarget, _⟩
  have hless := htarget.start.2
  refine lasts_accept (by decide) (fun equal second hequal => ?_) fun _ => lasts_pure
  have hleft := hequal.left
  refine lasts_bind (ih.expression second (by omega)) ?_
  refine (expression_spelled fuel second).mono fun value after _ => ?_
  dsimp only
  split
  · exact lasts_pure
  · exact lasts_failAt _ _

theorem unary_lasts (ih : LastsAt fuel) (hfuel : 8 * place.left + 2 ≤ fuel + 1) :
    (unary (fuel + 1)).Lasts place := by
  refine lasts_peek ?_
  split
  · rename_i op hop
    have hkind := UnaryOp.ofKind?_eq_some_iff.mp hop
    refine lasts_advance (by cases op <;> decide) hkind fun middle hpass => ?_
    have hleft := hpass.left
    exact lasts_return (ih.unary middle (by omega))
  · refine lasts_bind (ih.primary place (by omega)) (((spelledAt fuel).primary place).mono ?_)
    rintro callee middle ⟨hcallee, _⟩
    have hless := hcallee.start.2
    exact callTail_lasts (expression_spelled fuel)
      (fun after hle => ih.expression after (by omega)) (by omega)

theorem primary_lasts (ih : LastsAt fuel) (hfuel : 8 * place.left + 1 ≤ fuel + 1) :
    (primary (fuel + 1)).Lasts place := by
  refine lasts_peek ?_
  split
  · rename_i hkind
    refine lasts_advance (by decide) hkind fun _ _ => ?_
    split
    · exact lasts_pure
    · exact lasts_failAt _ _
  · rename_i hkind
    refine lasts_advance (by decide) hkind fun _ _ => ?_
    split
    · exact lasts_pure
    · exact lasts_failAt _ _
  · rename_i hkind
    exact lasts_advance (by decide) hkind fun _ _ => lasts_pure
  · rename_i hkind
    exact lasts_advance (by decide) hkind fun _ _ => lasts_pure
  · rename_i hkind
    exact lasts_advance (by decide) hkind fun _ _ => lasts_pure
  · rename_i hkind
    refine lasts_advance (by decide) hkind fun first hpass => ?_
    have hleft := hpass.left
    refine lasts_bind (ih.expression first (by omega)) ?_
    refine (expression_spelled fuel first).mono fun inner second _ => ?_
    exact lasts_expect (by decide) fun _ _ _ => lasts_spanFrom lasts_pure
  · rename_i hkind
    refine lasts_advance (by decide) hkind fun first hpass => ?_
    have hleft := hpass.left
    exact lasts_return (ih.function _ first (by omega))
  · exact lasts_failAt _ _

theorem block_lasts (ih : LastsAt fuel) (hfuel : 8 * place.left + 1 ≤ fuel + 1) :
    (block (fuel + 1)).Lasts place := by
  refine lasts_peek (lasts_expect (by decide) fun opening first hopening => ?_)
  have hleft := hopening.left
  refine lasts_bind (lasts_many (statement_advances fuel)
    (fun after hle => ih.statement after (by omega)) (by omega)) ?_
  refine (finds_many (spelledAt fuel).statement fuel first).mono fun statements second _ => ?_
  exact lasts_expect (by decide) fun _ _ _ => lasts_spanFrom lasts_pure

theorem function_lasts (ih : LastsAt fuel) (start : Span)
    (hfuel : 8 * place.left + 1 ≤ fuel + 1) : (function (fuel + 1) start).Lasts place := by
  refine lasts_peek (lasts_name fun name first hname => ?_)
  have hleft := hname.takes.left
  refine lasts_expect (by decide) fun opening second hopening => ?_
  have hleft' := hopening.left
  refine lasts_bind (lasts_separatedUntil (param_advances fuel)
    (fun after hle => param_lasts (by omega))
    (.inr fun _ => lasts_failHere .tooManyParameters)) ?_
  refine (finds_separatedUntil (param_spelled fuel)
    (fun _ _ => finds_bind (finds_peek (finds_failAt _ _))) maxArity).mono ?_
  rintro params third ⟨_, hparams⟩
  have hless := items_left (hparams.imp fun h => param_item h)
  refine lasts_expect (by decide) fun closing fourth hclosing => ?_
  have hleft'' := hclosing.left
  refine lasts_bind (typeExprAfter?_lasts (by decide) (by omega)) ?_
  refine (typeExprAfter?_spelled (by decide) fuel fourth).mono fun result fifth hresult => ?_
  have hless' := (TypeExpr.behind_takes hresult).takes.left
  refine lasts_bind (ih.block fifth (by omega)) (((spelledAt fuel).block fifth).mono ?_)
  exact fun _ _ _ => lasts_spanFrom lasts_pure

theorem statement_lasts (ih : LastsAt fuel) (hfuel : 8 * place.left + 4 ≤ fuel + 1) :
    (statement (fuel + 1)).Lasts place := by
  refine lasts_peek ?_
  split
  · rename_i hkind
    refine lasts_advance (by decide) hkind fun first hword => ?_
    have hleft := hword.left
    refine lasts_expectName fun name second hname => ?_
    have hleft' := hname.left
    refine lasts_bind (typeExprAfter?_lasts (by decide) (by omega)) ?_
    refine (typeExprAfter?_spelled (by decide) fuel second).mono fun declared third hdeclared => ?_
    have hless := (TypeExpr.behind_takes hdeclared).takes.left
    refine lasts_behind (by decide) (expression_spelled fuel) (fun equal fourth hequal => ?_)
      fun init after _ => lasts_spanFrom lasts_pure
    have hleft'' := hequal.left
    exact ih.expression fourth (by omega)
  · exact lasts_return (ih.block place (by omega))
  · rename_i hkind
    exact ih.conditional place hkind (by omega)
  · rename_i hkind
    refine lasts_advance (by decide) hkind fun first hword => ?_
    have hleft := hword.left
    refine lasts_bind (ih.expression first (by omega)) ?_
    refine (expression_spelled fuel first).mono fun condition second hcondition => ?_
    have hless := hcondition.start.2
    refine lasts_bind (ih.block second (by omega)) (((spelledAt fuel).block second).mono ?_)
    exact fun _ _ _ => lasts_spanFrom lasts_pure
  · rename_i hkind
    refine lasts_advance (by decide) hkind fun first hword => ?_
    have hleft := hword.left
    exact lasts_return (ih.function _ first (by omega))
  · rename_i hkind
    refine lasts_advance (by decide) hkind fun first hword => lasts_peek ?_
    have hleft := hword.left
    refine lasts_ite (fun _ => ?_) fun _ => ?_
    · exact lasts_bind lasts_pure (finds_pure (lasts_spanFrom lasts_pure))
    · refine lasts_bind (lasts_map (ih.expression first (by omega))) (finds_map ?_)
      exact (expression_spelled fuel first).mono fun _ _ _ => lasts_spanFrom lasts_pure
  · exact lasts_return (ih.expression place (by omega))

theorem conditional_lasts (ih : LastsAt fuel) (hkind : place.peek.kind = .ifWord)
    (hfuel : 8 * place.left + 1 ≤ fuel + 1) : (conditional (fuel + 1)).Lasts place := by
  refine lasts_advance (by decide) hkind fun first hword => ?_
  have hleft := hword.left
  refine lasts_bind (ih.expression first (by omega)) ?_
  refine (expression_spelled fuel first).mono fun condition second hcondition => ?_
  have hless := hcondition.start.2
  refine lasts_bind (ih.block second (by omega)) ?_
  refine ((spelledAt fuel).block second).mono fun thenBlock third hthen => ?_
  have hless' := hthen.start.2
  refine lasts_accept (by decide) (fun token fourth helse => ?_) fun _ => ?_
  · have hleft' := helse.left
    refine lasts_peek ?_
    split
    · rename_i hnext
      refine lasts_bind (ih.conditional fourth hnext (by omega)) ?_
      exact ((spelledAt fuel).conditional fourth hnext).mono fun _ _ _ => lasts_spanFrom lasts_pure
    · refine lasts_bind (ih.block fourth (by omega)) ?_
      exact ((spelledAt fuel).block fourth).mono fun _ _ _ => lasts_spanFrom lasts_pure
    · exact lasts_failAt _ _
  · exact lasts_spanFrom lasts_pure

end Steps

theorem lastsAt : (fuel : Nat) → LastsAt fuel
  | 0 => by constructor <;> intros <;> omega
  | fuel + 1 =>
      have ih := lastsAt fuel
      ⟨fun _ => expression_lasts ih, fun _ => unary_lasts ih, fun _ => primary_lasts ih,
        fun start _ => function_lasts ih start, fun _ => block_lasts ih,
        fun _ => statement_lasts ih, fun _ => conditional_lasts ih⟩

theorem statements_last {ends : Kind → Bool} {place : Cursor} {fuel : Nat}
    (hfuel : 8 * place.left + 4 ≤ fuel) : (many ends (statement fuel) fuel).Lasts place :=
  lasts_many (statement_advances fuel)
    (fun after hle => (lastsAt fuel).statement after (by omega)) (by omega)

end Parse

end Scriptlet
