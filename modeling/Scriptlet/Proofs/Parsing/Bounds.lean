import Scriptlet.Proofs.Parsing
import Scriptlet.Proofs.Parsing.Indexed

/-! Parsing by index stays in bounds. At each place it does what parsing does on the tokens that are
left from there on, so the troubles of its own never come about; and it never goes back. -/

namespace Scriptlet

namespace ClosedTokens.Place

variable {tokens : ClosedTokens} {place : tokens.Place}

def view (place : tokens.Place) : Cursor :=
  { Cursor.ofTokens (tokens.all.drop place.current) place.unnamed with passed := place.before.span }

theorem drop_current (place : tokens.Place) :
    tokens.all.drop place.current = place.next :: tokens.all.drop (place.current + 1) := by
  rw [List.drop_eq_getElem_cons place.valid]
  rfl

@[simp] theorem finish_view (place : tokens.Place) : place.view.finish.kind = .endOfInput :=
  Cursor.finish_ofTokens _ place.unnamed

@[simp] theorem peek_view (place : tokens.Place) : place.view.peek = place.next := by
  simp only [view, Cursor.ofTokens, Cursor.peek, drop_current]
  by_cases hend : place.next.kind = .endOfInput <;> simp [hend]

theorem succ_current_lt (h : place.next.kind ≠ .endOfInput) :
    place.current + 1 < tokens.all.length := by
  by_contra hlast
  have hvalid := place.valid
  have hindex : tokens.all.length - 1 = place.current := by omega
  have hclosed := tokens.closed
  rw [List.getLast?_eq_getElem?, hindex, List.getElem?_eq_getElem place.valid] at hclosed
  exact h (of_decide_eq_true hclosed)

def step (place : tokens.Place) (h : place.next.kind ≠ .endOfInput) : tokens.Place :=
  ⟨place.current + 1, place.unnamed, succ_current_lt h⟩

@[simp] theorem current_step (h : place.next.kind ≠ .endOfInput) :
    (place.step h).current = place.current + 1 := rfl

@[simp] theorem unnamed_step (h : place.next.kind ≠ .endOfInput) :
    (place.step h).unnamed = place.unnamed := rfl

@[simp] theorem before_step (h : place.next.kind ≠ .endOfInput) :
    (place.step h).before = place.next := rfl

theorem exists_find? (h : place.next.kind ≠ .endOfInput) :
    ∃ finish, (tokens.all.drop (place.current + 1)).find? (·.kind == .endOfInput) =
      some finish := by
  obtain ⟨last, hlast, hkind⟩ := (Option.any_eq_true _ _).mp tokens.closed
  rw [← Option.isSome_iff_exists, List.find?_isSome]
  refine ⟨last, List.mem_of_getLast? ?_, by simpa using hkind⟩
  rw [List.getLast?_drop, if_neg (Nat.not_le_of_lt (succ_current_lt h)), hlast]

theorem advance_view (h : place.next.kind ≠ .endOfInput) :
    Parse.advance place.view = .ok place.next (place.step h).view := by
  obtain ⟨finish, hfind⟩ := exists_find? h
  simp [Parse.advance, view, Cursor.ofTokens, drop_current, h, hfind]

end ClosedTokens.Place

namespace Indexed

variable {α β : Type} {tokens : ClosedTokens} {place : tokens.Place}

/-- The same end of a step that began at a place, which has not gone back. -/
inductive Shows (place : tokens.Place) :
    EStateM.Result Trouble tokens.Place α → EStateM.Result ParseError Cursor α → Prop
  | ok {value : α} {after : tokens.Place} (hle : place.current ≤ after.current) :
      Shows place (.ok value after) (.ok value after.view)
  | error {e : ParseError} {after : tokens.Place} (hle : place.current ≤ after.current) :
      Shows place (.error (.fault e) after) (.error e after.view)

/-- At the place, parsing by index ends as parsing what is left does. -/
def Agrees (parse : Indexed tokens α) (parse' : Parse α) (place : tokens.Place) : Prop :=
  Shows place (parse place) (parse' place.view)

section Rules

variable {parse : Indexed tokens α} {parse' : Parse α} {kind : Kind}

theorem agrees_pure (value : α) : Agrees (pure value) (pure value) place := .ok (Nat.le_refl _)

theorem agrees_failAt (fault : ParseFault) (span : Span) :
    Agrees (failAt fault span : Indexed tokens α) (Parse.failAt fault span) place :=
  .error (Nat.le_refl _)

theorem agrees_bind {next : α → Indexed tokens β} {next' : α → Parse β}
    (h : Agrees parse parse' place)
    (hnext : ∀ value after, Agrees (next value) (next' value) after) :
    Agrees (parse >>= next) (parse' >>= next') place := by
  unfold Agrees at h ⊢
  simp only [bind, EStateM.bind]
  generalize parse place = result at h ⊢
  generalize parse' place.view = result' at h ⊢
  cases h with
  | error hle => exact .error hle
  | @ok value after hle =>
      have hrest := hnext value after
      unfold Agrees at hrest
      simp only
      generalize next value after = result at hrest ⊢
      generalize next' value after.view = result' at hrest ⊢
      cases hrest with
      | ok hle' => exact .ok (Nat.le_trans hle hle')
      | error hle' => exact .error (Nat.le_trans hle hle')

theorem agrees_map {f : α → β} (h : Agrees parse parse' place) :
    Agrees (f <$> parse) (f <$> parse') place := by
  rw [map_eq_pure_bind, map_eq_pure_bind]
  exact agrees_bind h fun value _ => agrees_pure (f value)

theorem agrees_ite {condition : Prop} [Decidable condition] {other : Indexed tokens α}
    {other' : Parse α} (hparse : condition → Agrees parse parse' place)
    (hother : ¬condition → Agrees other other' place) :
    Agrees (if condition then parse else other) (if condition then parse' else other') place := by
  split
  · exact hparse ‹_›
  · exact hother ‹_›

theorem agrees_either {condition : Prop} [Decidable condition] {other : Indexed tokens α}
    {other' : Parse α} {next : α → Indexed tokens β} {next' : α → Parse β}
    (hparse : condition → Agrees parse parse' place)
    (hother : ¬condition → Agrees other other' place)
    (hnext : ∀ value after, Agrees (next value) (next' value) after) :
    Agrees (if condition then parse >>= next else other >>= next)
      (if condition then parse' >>= next' else other' >>= next') place :=
  agrees_ite (fun h => agrees_bind (hparse h) hnext) fun h => agrees_bind (hother h) hnext

theorem agrees_peek {next : Token → Indexed tokens α} {next' : Token → Parse α}
    (h : Agrees (next place.next) (next' place.next) place) :
    Agrees (peek >>= next) (Parse.peek >>= next') place := by
  unfold Agrees at h ⊢
  simpa [bind, EStateM.bind, peek, Parse.peek] using h

theorem agrees_spanFrom (first : Span) : Agrees (spanFrom first) (Parse.spanFrom first) place :=
  .ok (Nat.le_refl _)

theorem agrees_freshName : Agrees freshName Parse.freshName place :=
  @Shows.ok _ _ place _ { place with unnamed := place.unnamed + 1 } (Nat.le_refl _)

theorem agrees_failHere (fault : ParseFault) :
    Agrees (do failAt fault (← peek).span : Indexed tokens α)
      (do Parse.failAt fault (← Parse.peek).span) place :=
  agrees_peek (agrees_failAt fault _)

theorem agrees_exhausted : Agrees (exhausted : Indexed tokens α) Parse.exhausted place :=
  agrees_failHere .exhausted

/-- The only step that could leave the list. It is never taken at an end. -/
theorem agrees_advance (h : place.next.kind ≠ .endOfInput) :
    Agrees advance Parse.advance place := by
  have hrun : advance place = .ok place.next (place.step h) := by
    simp [advance, bind, EStateM.bind, peek, h, move, passed,
      ClosedTokens.Place.succ_current_lt h]
    exact ⟨rfl, rfl⟩
  unfold Agrees
  rw [hrun, ClosedTokens.Place.advance_view h]
  exact .ok (Nat.le_succ _)

theorem agrees_pass (hpeek : place.next.kind = kind) (hkind : kind ≠ .endOfInput) :
    Agrees advance Parse.advance place := agrees_advance (hpeek ▸ hkind)

theorem agrees_accept (hkind : kind ≠ .endOfInput) :
    Agrees (accept kind) (Parse.accept kind) place := by
  refine agrees_peek (agrees_ite (fun hpeek => ?_) fun _ => agrees_pure false)
  exact agrees_bind (agrees_pass hpeek hkind) fun _ _ => agrees_pure true

theorem agrees_expect (hkind : kind ≠ .endOfInput) (what : Expected) :
    Agrees (expect kind what) (Parse.expect kind what) place :=
  agrees_peek (agrees_ite (fun hpeek => agrees_pass hpeek hkind) fun _ => agrees_failAt _ _)

theorem agrees_expectName (what : Expected) :
    Agrees (expectName what) (Parse.expectName what) place :=
  agrees_bind (agrees_expect (by decide) what) fun token _ => agrees_pure token.lexeme

end Rules

section Lists

variable {full : Indexed tokens (List α)} {full' : Parse (List α)} {item : Indexed tokens α}
  {item' : Parse α}

theorem agrees_separated (hfull : ∀ place, Agrees full full' place)
    (hitem : ∀ place, Agrees item item' place) (room : Nat) :
    Agrees (separated full item room) (Parse.separated full' item' room) place := by
  induction room generalizing place with
  | zero => exact hfull place
  | succ room ih =>
      refine agrees_bind (hitem place) fun first _ => ?_
      refine agrees_bind (agrees_accept (by decide)) fun comma _ => ?_
      refine agrees_ite (fun _ => ?_) fun _ => agrees_pure [first]
      exact agrees_bind ih fun rest _ => agrees_pure (first :: rest)

theorem agrees_separatedUntil (close : Kind) (hfull : ∀ place, Agrees full full' place)
    (hitem : ∀ place, Agrees item item' place) (room : Nat) :
    Agrees (separatedUntil close full item room) (Parse.separatedUntil close full' item' room)
      place :=
  agrees_peek (agrees_ite (fun _ => agrees_pure []) fun _ => agrees_separated hfull hitem room)

theorem agrees_many (ends : Kind → Bool) (hitem : ∀ place, Agrees item item' place)
    (fuel : Nat) : Agrees (many ends item fuel) (Parse.many ends item' fuel) place := by
  induction fuel generalizing place with
  | zero => exact agrees_exhausted
  | succ fuel ih =>
      refine agrees_peek (agrees_ite (fun _ => agrees_pure []) fun _ => ?_)
      refine agrees_bind (hitem place) fun first _ => ?_
      exact agrees_bind ih fun rest _ => agrees_pure (first :: rest)

end Lists

section Types

theorem agrees_typeExpr (fuel : Nat) : Agrees (typeExpr fuel) (Parse.typeExpr fuel) place := by
  induction fuel generalizing place with
  | zero => exact agrees_exhausted
  | succ fuel ih =>
      refine agrees_peek (agrees_bind (agrees_accept (by decide)) fun isFunction _ => ?_)
      refine agrees_ite (fun _ => ?_) fun _ => ?_
      · refine agrees_bind (agrees_expect (by decide) _) fun _ _ => ?_
        refine agrees_bind (agrees_separatedUntil _ (fun _ => agrees_exhausted) (fun _ => ih) fuel)
          fun params _ => ?_
        refine agrees_bind (agrees_expect (by decide) _) fun _ _ => ?_
        refine agrees_bind (agrees_accept (by decide)) fun _ _ => ?_
        refine agrees_either (fun _ => agrees_map ih) (fun _ => agrees_pure none) fun result _ => ?_
        exact agrees_bind (agrees_spanFrom _) fun _ _ => agrees_pure _
      · exact agrees_bind (agrees_expectName _) fun _ _ => agrees_pure _

theorem agrees_typeExprAfter? {mark : Kind} (hmark : mark ≠ .endOfInput) (fuel : Nat) :
    Agrees (typeExprAfter? mark fuel) (Parse.typeExprAfter? mark fuel) place :=
  agrees_bind (agrees_accept hmark) fun _ _ =>
    agrees_ite (fun _ => agrees_map (agrees_typeExpr fuel)) fun _ => agrees_pure none

theorem agrees_param (fuel : Nat) : Agrees (param fuel) (Parse.param fuel) place :=
  agrees_peek (agrees_bind (agrees_expectName _) fun _ _ =>
    agrees_bind (agrees_typeExprAfter? (by decide) fuel) fun _ _ =>
      agrees_bind (agrees_spanFrom _) fun _ _ => agrees_pure _)

end Types

section Operators

variable {operand argument : Indexed tokens Expr} {operand' argument' : Parse Expr}

theorem agrees_acceptBinary (ops : List BinaryOp) :
    Agrees (acceptBinary ops) (Parse.acceptBinary ops) place := by
  refine agrees_peek ?_
  cases hop : BinaryOp.ofKind? place.next.kind with
  | none => exact agrees_pure none
  | some op =>
      have hopen : place.next.kind ≠ .endOfInput := fun hend => by
        simp [hend, BinaryOp.ofKind?] at hop
      refine agrees_ite (fun _ => ?_) fun _ => agrees_pure none
      exact agrees_bind (agrees_advance hopen) fun _ _ => agrees_pure (some op)

theorem agrees_binaryTail (ops : List BinaryOp) (h : ∀ place, Agrees operand operand' place)
    (fuel : Nat) (left : Expr) :
    Agrees (binaryTail ops operand fuel left) (Parse.binaryTail ops operand' fuel left) place := by
  induction fuel generalizing place left with
  | zero => exact agrees_exhausted
  | succ fuel ih =>
      refine agrees_bind (agrees_acceptBinary ops) fun accepted middle => ?_
      cases accepted with
      | none => exact agrees_pure left
      | some op => exact agrees_bind (h middle) fun right _ => ih _

theorem agrees_binary (h : ∀ place, Agrees operand operand' place) (fuel : Nat) :
    Agrees (binary operand fuel) (Parse.binary operand' fuel) place := by
  unfold binary Parse.binary
  induction BinaryOp.levels generalizing place with
  | nil => exact h place
  | cons ops levels ih =>
      exact agrees_bind ih fun left _ => agrees_binaryTail ops (fun _ => ih) fuel left

theorem agrees_callTail (h : ∀ place, Agrees argument argument' place) (fuel : Nat)
    (callee : Expr) :
    Agrees (callTail argument fuel callee) (Parse.callTail argument' fuel callee) place := by
  induction fuel generalizing place callee with
  | zero => exact agrees_exhausted
  | succ fuel ih =>
      refine agrees_bind (agrees_accept (by decide)) fun _ _ => ?_
      refine agrees_ite (fun _ => ?_) fun _ => agrees_pure callee
      refine agrees_bind (agrees_separatedUntil _ (fun _ => agrees_failHere _) h maxArity)
        fun args _ => ?_
      refine agrees_bind (agrees_expect (by decide) _) fun _ _ => ?_
      exact agrees_bind (agrees_spanFrom _) fun _ _ => ih _

end Operators

/-- With the fuel given, phrases of all kinds are parsed alike. A condition is begun where its word
is. -/
structure AgreesAt (tokens : ClosedTokens) (fuel : Nat) : Prop where
  expression : ∀ place : tokens.Place, Agrees (expression fuel) (Parse.expression fuel) place
  unary : ∀ place : tokens.Place, Agrees (unary fuel) (Parse.unary fuel) place
  primary : ∀ place : tokens.Place, Agrees (primary fuel) (Parse.primary fuel) place
  function : ∀ (start : Span) (place : tokens.Place),
    Agrees (function fuel start) (Parse.function fuel start) place
  block : ∀ place : tokens.Place, Agrees (block fuel) (Parse.block fuel) place
  statement : ∀ place : tokens.Place, Agrees (statement fuel) (Parse.statement fuel) place
  conditional : ∀ place : tokens.Place, place.next.kind = .ifWord →
    Agrees (conditional fuel) (Parse.conditional fuel) place

section Steps

variable {fuel : Nat} (h : AgreesAt tokens fuel)

include h

theorem AgreesAt.expression_step :
    Agrees (Indexed.expression (fuel + 1)) (Parse.expression (fuel + 1)) place := by
  refine agrees_bind (agrees_binary h.unary fuel) fun target _ => ?_
  refine agrees_bind (agrees_accept (by decide)) fun _ _ => ?_
  refine agrees_ite (fun _ => ?_) fun _ => agrees_pure target
  refine agrees_bind (h.expression _) fun value _ => ?_
  cases target with
  | «variable» => exact agrees_pure _
  | _ => exact agrees_failAt _ _

theorem AgreesAt.unary_step :
    Agrees (Indexed.unary (fuel + 1)) (Parse.unary (fuel + 1)) place := by
  refine agrees_peek ?_
  cases hop : UnaryOp.ofKind? place.next.kind with
  | none => exact agrees_bind (h.primary _) fun callee _ => agrees_callTail h.expression fuel callee
  | some op =>
      have hopen : place.next.kind ≠ .endOfInput := fun hend => by
        simp [hend, UnaryOp.ofKind?] at hop
      refine agrees_bind (agrees_advance hopen) fun _ _ => ?_
      exact agrees_bind (h.unary _) fun _ _ => agrees_pure _

theorem AgreesAt.primary_step :
    Agrees (Indexed.primary (fuel + 1)) (Parse.primary (fuel + 1)) place := by
  refine agrees_peek ?_
  cases hkind : place.next.kind with
  | number =>
      refine agrees_bind (agrees_pass hkind (by decide)) fun _ _ => ?_
      rcases place.next.payload with _ | value | _
      case some.number => exact agrees_pure _
      all_goals exact agrees_failAt _ _
  | string =>
      refine agrees_bind (agrees_pass hkind (by decide)) fun _ _ => ?_
      rcases place.next.payload with _ | _ | value
      case some.text => exact agrees_pure _
      all_goals exact agrees_failAt _ _
  | trueWord => exact agrees_bind (agrees_pass hkind (by decide)) fun _ _ => agrees_pure _
  | falseWord => exact agrees_bind (agrees_pass hkind (by decide)) fun _ _ => agrees_pure _
  | identifier => exact agrees_bind (agrees_pass hkind (by decide)) fun _ _ => agrees_pure _
  | leftParen =>
      refine agrees_bind (agrees_pass hkind (by decide)) fun _ _ => ?_
      refine agrees_bind (h.expression _) fun inner _ => ?_
      refine agrees_bind (agrees_expect (by decide) _) fun _ _ => ?_
      exact agrees_bind (agrees_spanFrom _) fun _ _ => agrees_pure _
  | fnWord =>
      refine agrees_bind (agrees_pass hkind (by decide)) fun _ _ => ?_
      exact agrees_bind (h.function _ _) fun _ _ => agrees_pure _
  | _ => exact agrees_failAt _ _

theorem AgreesAt.function_step (start : Span) :
    Agrees (Indexed.function (fuel + 1) start) (Parse.function (fuel + 1) start) place := by
  refine agrees_peek (agrees_either (fun _ => agrees_freshName) (fun hkind => ?_)
    fun name _ => ?_)
  · exact agrees_map (agrees_pass (Decidable.of_not_not hkind) (by decide))
  · refine agrees_bind (agrees_expect (by decide) _) fun _ _ => ?_
    refine agrees_bind (agrees_separatedUntil _ (fun _ => agrees_failHere _)
      (fun _ => agrees_param fuel) maxArity) fun params _ => ?_
    refine agrees_bind (agrees_expect (by decide) _) fun _ _ => ?_
    refine agrees_bind (agrees_typeExprAfter? (by decide) fuel) fun result _ => ?_
    refine agrees_bind (h.block _) fun body _ => ?_
    exact agrees_bind (agrees_spanFrom _) fun _ _ => agrees_pure _

theorem AgreesAt.block_step :
    Agrees (Indexed.block (fuel + 1)) (Parse.block (fuel + 1)) place := by
  refine agrees_peek (agrees_bind (agrees_expect (by decide) _) fun _ _ => ?_)
  refine agrees_bind (agrees_many _ h.statement fuel) fun statements _ => ?_
  refine agrees_bind (agrees_expect (by decide) _) fun _ _ => ?_
  exact agrees_bind (agrees_spanFrom _) fun _ _ => agrees_pure _

theorem AgreesAt.statement_step :
    Agrees (Indexed.statement (fuel + 1)) (Parse.statement (fuel + 1)) place := by
  refine agrees_peek ?_
  cases hkind : place.next.kind with
  | letWord =>
      refine agrees_bind (agrees_pass hkind (by decide)) fun _ _ => ?_
      refine agrees_bind (agrees_expectName _) fun name _ => ?_
      refine agrees_bind (agrees_typeExprAfter? (by decide) fuel) fun declared _ => ?_
      refine agrees_bind (agrees_accept (by decide)) fun _ _ => ?_
      refine agrees_either (fun _ => agrees_map (h.expression _)) (fun _ => agrees_pure none)
        fun init _ => ?_
      exact agrees_bind (agrees_spanFrom _) fun _ _ => agrees_pure _
  | leftBrace => exact agrees_bind (h.block _) fun _ _ => agrees_pure _
  | ifWord => exact h.conditional place hkind
  | whileWord =>
      refine agrees_bind (agrees_pass hkind (by decide)) fun _ _ => ?_
      refine agrees_bind (h.expression _) fun condition _ => ?_
      refine agrees_bind (h.block _) fun body _ => ?_
      exact agrees_bind (agrees_spanFrom _) fun _ _ => agrees_pure _
  | fnWord =>
      refine agrees_bind (agrees_pass hkind (by decide)) fun _ _ => ?_
      exact agrees_bind (h.function _ _) fun _ _ => agrees_pure _
  | returnWord =>
      refine agrees_bind (agrees_pass hkind (by decide)) fun _ _ => agrees_peek ?_
      refine agrees_either (fun _ => agrees_pure none) (fun _ => agrees_map (h.expression _))
        fun value _ => ?_
      exact agrees_bind (agrees_spanFrom _) fun _ _ => agrees_pure _
  | _ => exact agrees_bind (h.expression _) fun _ _ => agrees_pure _

theorem AgreesAt.conditional_step (hkind : place.next.kind = .ifWord) :
    Agrees (Indexed.conditional (fuel + 1)) (Parse.conditional (fuel + 1)) place := by
  refine agrees_bind (agrees_pass hkind (by decide)) fun word _ => ?_
  refine agrees_bind (h.expression _) fun condition _ => ?_
  refine agrees_bind (h.block _) fun thenBlock _ => ?_
  refine agrees_bind (agrees_accept (by decide)) fun _ after => agrees_ite (fun _ => ?_) fun _ => ?_
  · refine agrees_peek ?_
    cases hnext : after.next.kind with
    | ifWord =>
        refine agrees_bind (h.conditional after hnext) fun otherwise _ => ?_
        exact agrees_bind (agrees_spanFrom _) fun _ _ => agrees_pure _
    | leftBrace =>
        refine agrees_bind (h.block _) fun otherwise _ => ?_
        exact agrees_bind (agrees_spanFrom _) fun _ _ => agrees_pure _
    | _ => exact agrees_failAt _ _
  · exact agrees_bind (agrees_spanFrom _) fun _ _ => agrees_pure _

end Steps

theorem agreesAt (tokens : ClosedTokens) (fuel : Nat) : AgreesAt tokens fuel := by
  induction fuel with
  | zero => constructor <;> intros <;> exact agrees_exhausted
  | succ fuel ih =>
      exact {
        expression := fun _ => ih.expression_step
        unary := fun _ => ih.unary_step
        primary := fun _ => ih.primary_step
        function := fun start _ => ih.function_step start
        block := fun _ => ih.block_step
        statement := fun _ => ih.statement_step
        conditional := fun _ => ih.conditional_step }

end Indexed

end Scriptlet
