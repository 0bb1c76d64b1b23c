import Scriptlet.Proofs.Parsing.Begun

/-! Numbers of functions without a name. Whatever is parsed, one number is handed out for each word
that begins such a function, when the word is passed, and no other number; this is so up to an error
too. In a tree the functions have the numbers of their words. -/

namespace Scriptlet

namespace Parse

variable {α β : Type}

/-- From a cursor on, parsing passes tokens and hands out the numbers of their words. The answer has
the functions that are there already, and those that begin with the words. -/
def Tells (already : List Unnamed) (labels : α → List Unnamed) (spot : Spot) (before : Cursor)
    (spot' : Spot) : EStateM.Result ParseError Cursor α → Prop
  | .ok value after => ∃ words, Walks spot before words spot' after ∧
      labels value = already ++ numbered before.unnamed words
  | .error e after => e.fault = .exhausted ∨
      ∃ words last, Walks spot before words last after

def Numbers (parse : Parse α) (place : Cursor) (spot spot' : Spot) (already : List Unnamed)
    (labels : α → List Unnamed) : Prop :=
  place.finish.kind = .endOfInput → Tells already labels spot place spot' (parse place)

def bare : α → List Unnamed := fun _ => []

section Rules

variable {parse : Parse α} {place : Cursor} {spot middle spot' : Spot}
  {already : List Unnamed} {labels : α → List Unnamed} {labels' : β → List Unnamed}

theorem Tells.behind {before between : Cursor} {words : List Token}
    {result : EStateM.Result ParseError Cursor α} (hwalk : Walks spot before words middle between)
    (h : Tells (already ++ numbered before.unnamed words) labels middle between spot' result) :
    Tells already labels spot before spot' result := by
  cases result with
  | ok value after =>
      obtain ⟨others, hothers, hlabels⟩ := h
      refine ⟨words ++ others, hwalk.trans hothers, ?_⟩
      rw [hlabels, numbered_append, hwalk.unnamed, List.append_assoc]
  | error e after =>
      exact h.imp_right fun ⟨others, last, hothers⟩ => ⟨_, last, hwalk.trans hothers⟩

theorem numbers_pure {value : α} (h : labels value = already) :
    Numbers (pure value) place spot spot already labels :=
  fun _ => ⟨[], .refl spot place, by rw [h, numbered, List.append_nil]⟩

theorem numbers_failAt (fault : ParseFault) (span : Span) :
    Numbers (failAt fault span) place spot spot' already labels :=
  fun _ => .inr ⟨[], spot, .refl spot place⟩

theorem numbers_bind {next : α → Parse β} (h : Numbers parse place spot middle [] labels)
    (hnext : ∀ value after,
      Numbers (next value) after middle spot' (already ++ labels value) labels') :
    Numbers (parse >>= next) place spot spot' already labels' := by
  intro hfinish
  have hfirst := h hfinish
  simp only [bind, EStateM.bind]
  cases hparse : parse place with
  | ok value after =>
      rw [hparse] at hfirst
      obtain ⟨words, hwalk, hlabels⟩ := hfirst
      have hrest := hnext value after (hwalk.finish ▸ hfinish)
      rw [hlabels, List.nil_append] at hrest
      exact hrest.behind hwalk
  | error e after =>
      rw [hparse] at hfirst
      exact hfirst

theorem numbers_step {next : α → Parse β} (h : Numbers parse place spot middle [] bare)
    (hnext : ∀ value after, Numbers (next value) after middle spot' already labels') :
    Numbers (parse >>= next) place spot spot' already labels' :=
  numbers_bind h fun value after => by
    rw [bare, List.append_nil]
    exact hnext value after

theorem numbers_map {f : α → β} (h : Numbers parse place spot spot' [] labels)
    (hf : ∀ value, labels' (f value) = already ++ labels value) :
    Numbers (f <$> parse) place spot spot' already labels' := by
  rw [map_eq_pure_bind]
  exact numbers_bind h fun value after => numbers_pure (hf value)

theorem numbers_ite {condition : Prop} [Decidable condition] {other : Parse α}
    (hparse : condition → Numbers parse place spot spot' already labels)
    (hother : ¬condition → Numbers other place spot spot' already labels) :
    Numbers (if condition then parse else other) place spot spot' already labels := by
  split
  · exact hparse ‹_›
  · exact hother ‹_›

theorem numbers_peek {next : Token → Parse α}
    (h : Numbers (next place.peek) place spot spot' already labels) :
    Numbers (peek >>= next) place spot spot' already labels := h

theorem numbers_spanFrom {first : Span} {next : Span → Parse α}
    (h : Numbers (next (first.upTo place.passed)) place spot spot' already labels) :
    Numbers (spanFrom first >>= next) place spot spot' already labels := h

theorem numbers_failHere (fault : ParseFault) :
    Numbers (do failAt fault (← peek).span) place spot spot' already labels :=
  numbers_peek (numbers_failAt fault _)

theorem numbers_exhausted : Numbers exhausted place spot spot' already labels :=
  numbers_failHere _

theorem advance_passes {kind : Kind} (hkind : kind ≠ .endOfInput) (hpeek : place.peek.kind = kind)
    (hfinish : place.finish.kind = .endOfInput) :
    ∃ after, Passes kind place.peek place after ∧ advance place = .ok place.peek after := by
  obtain ⟨rest, finish, passed, unnamed⟩ := place
  cases rest with
  | nil => exact absurd (hpeek.symm.trans hfinish) hkind
  | cons token rest => exact ⟨_, .intro hpeek, rfl⟩

theorem numbers_advance {kind : Kind} {next : Token → Parse α} (hpeek : place.peek.kind = kind)
    (hplain : spot.plain kind)
    (h : ∀ after, Numbers (next place.peek) after (spot.after kind) spot' already labels) :
    Numbers (advance >>= next) place spot spot' already labels := by
  intro hfinish
  obtain ⟨after, hpass, hadvance⟩ :=
    advance_passes (Spot.ne_endOfInput_of_plain hplain) hpeek hfinish
  have hwalk := Walks.of_passes hpass hplain
  simp only [bind, EStateM.bind, hadvance]
  refine Tells.behind hwalk ?_
  rw [numbered, List.append_nil]
  exact h after (hwalk.finish ▸ hfinish)

theorem numbers_accept {kind : Kind} {next : Bool → Parse α} (hplain : spot.plain kind)
    (hyes : ∀ after, Numbers (next true) after (spot.after kind) spot' already labels)
    (hno : Numbers (next false) place spot spot' already labels) :
    Numbers (accept kind >>= next) place spot spot' already labels := by
  rw [accept, bind_assoc]
  refine numbers_peek ?_
  by_cases hpeek : place.peek.kind = kind
  · simp only [if_pos hpeek, bind_assoc, pure_bind]
    exact numbers_advance hpeek hplain hyes
  · simp only [if_neg hpeek, pure_bind]
    exact hno

theorem numbers_expect {kind : Kind} {what : Expected} {next : Token → Parse α}
    (hplain : spot.plain kind)
    (h : ∀ token after, Numbers (next token) after (spot.after kind) spot' already labels) :
    Numbers (expect kind what >>= next) place spot spot' already labels := by
  rw [expect, bind_assoc]
  refine numbers_peek ?_
  by_cases hpeek : place.peek.kind = kind
  · simp only [if_pos hpeek]
    exact numbers_advance hpeek hplain (h _)
  · simp only [if_neg hpeek]
    exact numbers_step (numbers_failAt _ _) h

theorem numbers_expectName {what : Expected} {next : String → Parse α}
    (h : ∀ name after, Numbers (next name) after (spot.after .identifier) spot' already labels) :
    Numbers (expectName what >>= next) place spot spot' already labels := by
  rw [expectName, bind_assoc]
  exact numbers_expect rfl fun token after => h token.lexeme after

theorem numbers_word {parens : List Bool} {next : Token → String → Parse α}
    (hpeek : place.peek.kind = .fnWord)
    (h : ∀ token name after, Numbers (next token name) after (.settled parens) spot'
      (if token.kind ≠ .identifier then [.of name place.peek.span] else []) labels) :
    Numbers (advance >>= fun _ => peek >>= fun token =>
      if token.kind ≠ .identifier then freshName >>= next token
      else (·.lexeme) <$> advance >>= next token) place (.settled parens) spot' [] labels := by
  intro hfinish
  obtain ⟨middle, hpass, hadvance⟩ := advance_passes (by decide) hpeek hfinish
  have hwalk := @Walks.of_word _ _ parens _ hpass hfinish
  have hnext := h middle.peek
  simp only [bind, EStateM.bind, hadvance, peek]
  split at hwalk
  · rename_i hname
    simp only [if_pos hname] at hnext ⊢
    refine Tells.behind hwalk ?_
    have hunnamed : middle.unnamed = place.unnamed := Nat.succ.inj hwalk.unnamed
    rw [← hunnamed]
    exact hnext _ _ (hwalk.finish ▸ hfinish)
  · rename_i hname
    simp only [if_neg hname] at hnext ⊢
    refine Tells.behind hwalk ?_
    have hown : Numbers ((·.lexeme) <$> advance >>= next middle.peek) middle (.settled parens) spot'
        [] labels := by
      rw [map_eq_pure_bind, bind_assoc]
      refine numbers_advance (Decidable.of_not_not hname) rfl fun after => ?_
      rw [pure_bind]
      exact hnext _ after
    exact hown (hwalk.finish ▸ hfinish)

end Rules

section Lists

variable {item : Parse α} {place : Cursor} {spot spot' : Spot} {parens : List Bool} {types : Bool}
  {already : List Unnamed} {labels : α → List Unnamed} {labels' : β → List Unnamed}

theorem numbers_separated {full : Parse (List α)}
    (hfull : ∀ place spot spot' already labels, Numbers full place spot spot' already labels)
    (hitem : ∀ place,
      Numbers item place (.item types parens) (.settled (types :: parens)) [] labels) :
    (room : Nat) → (place : Cursor) →
    Numbers (separated full item room) place (.item types parens) (.settled (types :: parens)) []
      fun items => items.flatMap labels
  | 0, place => hfull place _ _ _ _
  | room + 1, place => by
      have hcomma : (Spot.settled (types :: parens)).after .comma = .item types parens := by
        cases types <;> rfl
      refine numbers_bind (hitem place) fun first after => ?_
      refine numbers_accept rfl (fun second => ?_) (numbers_pure (by simp))
      rw [hcomma]
      exact numbers_bind (numbers_separated hfull hitem room second) fun rest last =>
        numbers_pure rfl

theorem numbers_enclosed (types : Bool) (parens : List Bool) {full : Parse (List α)} {room : Nat}
    {what : Expected} {next : List α → Parse β}
    (hfull : ∀ place spot spot' already labels, Numbers full place spot spot' already labels)
    (hitem : ∀ place,
      Numbers item place (.item types parens) (.settled (types :: parens)) [] labels)
    (h : ∀ items after, Numbers (next items) after (.settled parens) spot'
      (already ++ items.flatMap labels) labels') :
    Numbers (separatedUntil .rightParen full item room >>= fun items =>
      expect .rightParen what >>= fun _ => next items) place (.item types parens) spot' already
      labels' := by
  rw [separatedUntil, bind_assoc]
  refine numbers_peek ?_
  split
  · rw [pure_bind]
    refine numbers_expect rfl fun _ after => ?_
    have hnil := h [] after
    rwa [List.flatMap_nil, List.append_nil] at hnil
  · refine numbers_bind (numbers_separated hfull hitem room place) fun items after => ?_
    exact numbers_expect rfl fun _ last => h items last

theorem numbers_optional (h : Numbers item place spot spot' [] labels) :
    Numbers (some <$> item) place spot spot' [] fun value => value.elim [] labels :=
  numbers_map h fun _ => rfl

theorem numbers_behind {mark : Kind} {next : Option α → Parse β} (hplain : spot.plain mark)
    (hitem : ∀ place, Numbers item place (spot.after mark) spot [] labels)
    (h : ∀ value after, Numbers (next value) after spot spot' (already ++ value.elim [] labels)
      labels') :
    Numbers (accept mark >>= fun given =>
      if given then (some <$> item) >>= next else pure none >>= next) place spot spot' already
      labels' := by
  refine numbers_accept hplain (fun middle => ?_) ?_
  · exact numbers_bind (numbers_optional (hitem middle)) h
  · have hnone := h none place
    rwa [Option.elim_none, List.append_nil] at hnone

theorem numbers_many {ends : Kind → Bool}
    (hitem : ∀ place, Numbers item place spot spot [] labels) :
    (fuel : Nat) → (place : Cursor) →
    Numbers (many ends item fuel) place spot spot [] fun items => items.flatMap labels
  | 0, _ => numbers_exhausted
  | fuel + 1, place => by
      refine numbers_peek (numbers_ite (fun _ => numbers_pure rfl) fun _ => ?_)
      refine numbers_bind (hitem place) fun first after => ?_
      exact numbers_bind (numbers_many hitem fuel after) fun rest last => numbers_pure rfl

end Lists

section Types

variable {parens : List Bool}

theorem numbers_typeExpr : (fuel : Nat) → (parens : List Bool) → (place : Cursor) →
    Numbers (typeExpr fuel) place (.awaiting parens) (.settled parens) [] bare
  | 0, _, _ => numbers_exhausted
  | fuel + 1, parens, place => by
      refine numbers_peek (numbers_accept rfl (fun first => ?_) ?_)
      · refine numbers_expect rfl fun _ second => ?_
        refine numbers_enclosed true parens (fun _ _ _ _ _ => numbers_exhausted)
          (fun place => numbers_typeExpr fuel (true :: parens) place) fun params third => ?_
        refine numbers_behind rfl (numbers_typeExpr fuel parens) fun result after => ?_
        exact numbers_spanFrom (numbers_pure (by cases result <;> simp [bare]))
      · exact numbers_expectName fun name after => numbers_pure rfl

theorem numbers_typeExprAfter? {mark : Kind} (hplain : (Spot.settled parens).plain mark)
    (hawaits : (Spot.settled parens).after mark = .awaiting parens) (fuel : Nat) (place : Cursor) :
    Numbers (typeExprAfter? mark fuel) place (.settled parens) (.settled parens) [] bare := by
  refine numbers_accept hplain (fun after => ?_) (numbers_pure rfl)
  rw [hawaits]
  exact numbers_map (numbers_typeExpr fuel parens after) fun _ => rfl

theorem numbers_param (fuel : Nat) (place : Cursor) :
    Numbers (param fuel) place (.settled parens) (.settled parens) [] bare :=
  numbers_peek (numbers_expectName fun _ middle =>
    numbers_step (numbers_typeExprAfter? rfl rfl fuel middle) fun _ _ =>
      numbers_spanFrom (numbers_pure rfl))

end Types

section Operators

variable {parens : List Bool} {operand argument : Parse Expr} {place : Cursor}

def NumbersExpr (parse : Parse Expr) : Prop := ∀ parens place,
  Numbers parse place (.settled parens) (.settled parens) [] fun expr => unnamedIn expr.nodes

theorem numbers_acceptBinary (ops : List BinaryOp) :
    Numbers (acceptBinary ops) place (.settled parens) (.settled parens) [] bare := by
  refine numbers_peek ?_
  split
  · rename_i op hop
    have hkind := BinaryOp.ofKind?_eq_some_iff.mp hop
    have hspot : (Spot.settled parens).after op.kind = .settled parens := by cases op <;> rfl
    refine numbers_ite (fun _ => ?_) fun _ => numbers_pure rfl
    refine numbers_advance hkind (by cases op <;> rfl) fun after => ?_
    rw [hspot]
    exact numbers_pure rfl
  · exact numbers_pure rfl

theorem numbers_binaryTail (h : NumbersExpr operand) (ops : List BinaryOp) : (fuel : Nat) →
    (left : Expr) → (place : Cursor) →
    Numbers (binaryTail ops operand fuel left) place (.settled parens) (.settled parens)
      (unnamedIn left.nodes) fun expr => unnamedIn expr.nodes
  | 0, _, _ => numbers_exhausted
  | fuel + 1, left, place => by
      refine numbers_step (numbers_acceptBinary ops) fun accepted middle => ?_
      cases accepted with
      | none => exact numbers_pure rfl
      | some op =>
          refine numbers_bind (h parens middle) fun right after => ?_
          have hnext := numbers_binaryTail h ops fuel
            (.binary op left right ⟨left.span.upTo right.span, none⟩) after
          simpa [Expr.nodes] using hnext

theorem numbers_binary (h : NumbersExpr operand) (fuel : Nat) :
    NumbersExpr (binary operand fuel) := by
  unfold binary
  induction BinaryOp.levels with
  | nil => exact h
  | cons ops levels ih =>
      exact fun parens place => numbers_bind (ih parens place) fun left after =>
        numbers_binaryTail ih ops fuel left after

theorem numbers_callTail (h : NumbersExpr argument) : (fuel : Nat) → (callee : Expr) →
    (place : Cursor) →
    Numbers (callTail argument fuel callee) place (.settled parens) (.settled parens)
      (unnamedIn callee.nodes) fun expr => unnamedIn expr.nodes
  | 0, _, _ => numbers_exhausted
  | fuel + 1, callee, place => by
      refine numbers_accept rfl (fun first => ?_) (numbers_pure rfl)
      refine numbers_enclosed false parens (fun _ _ _ _ _ => numbers_failHere _)
        (h (false :: parens)) fun args after => numbers_spanFrom ?_
      have hnext := numbers_callTail h fuel
        (.call callee args ⟨callee.span.upTo after.passed, none⟩) after
      simpa [Expr.nodes, unnamedIn_exprs] using hnext

theorem numbers_literal (value : Literal) (span : Span) :
    Numbers (literal value span) place (.settled parens) (.settled parens) []
      fun expr => unnamedIn expr.nodes := numbers_pure rfl

end Operators

structure NumbersAt (fuel : Nat) : Prop where
  expression : NumbersExpr (expression fuel)
  unary : NumbersExpr (unary fuel)
  primary : NumbersExpr (primary fuel)
  function : ∀ parens place, place.peek.kind = .fnWord →
    Numbers (advance >>= fun _ => function fuel place.peek.span) place (.settled parens)
      (.settled parens) [] fun decl => unnamedIn decl.nodes
  block : ∀ parens place, Numbers (block fuel) place (.settled parens) (.settled parens) []
    fun block => unnamedIn block.nodes
  statement : ∀ parens place, Numbers (statement fuel) place (.settled parens) (.settled parens) []
    fun stmt => unnamedIn stmt.nodes
  conditional : ∀ parens place, place.peek.kind = .ifWord →
    Numbers (conditional fuel) place (.settled parens) (.settled parens) []
      fun stmt => unnamedIn stmt.nodes

section Steps

variable {fuel : Nat}

theorem numbers_expression (ih : NumbersAt fuel) : NumbersExpr (expression (fuel + 1)) := by
  intro parens place
  refine numbers_bind (numbers_binary ih.unary fuel parens place) fun target middle => ?_
  refine numbers_accept rfl (fun after => ?_) (numbers_pure rfl)
  refine numbers_bind (ih.expression parens after) fun value last => ?_
  split
  · exact numbers_pure (by simp [Expr.nodes])
  · exact numbers_failAt _ _

theorem numbers_unary (ih : NumbersAt fuel) : NumbersExpr (unary (fuel + 1)) := by
  intro parens place
  refine numbers_peek ?_
  split
  · rename_i op hop
    have hkind := UnaryOp.ofKind?_eq_some_iff.mp hop
    have hspot : (Spot.settled parens).after op.kind = .settled parens := by cases op <;> rfl
    refine numbers_advance hkind (by cases op <;> rfl) fun after => ?_
    rw [hspot]
    exact numbers_bind (ih.unary parens after) fun operand last => numbers_pure rfl
  · exact numbers_bind (ih.primary parens place) fun callee after =>
      numbers_callTail ih.expression fuel callee after

theorem numbers_primary (ih : NumbersAt fuel) : NumbersExpr (primary (fuel + 1)) := by
  intro parens place
  refine numbers_peek ?_
  split
  · rename_i hkind
    refine numbers_advance hkind rfl fun after => ?_
    split
    · exact numbers_literal _ _
    · exact numbers_failAt _ _
  · rename_i hkind
    refine numbers_advance hkind rfl fun after => ?_
    split
    · exact numbers_literal _ _
    · exact numbers_failAt _ _
  · rename_i hkind
    exact numbers_advance hkind rfl fun after => numbers_literal _ _
  · rename_i hkind
    exact numbers_advance hkind rfl fun after => numbers_literal _ _
  · rename_i hkind
    exact numbers_advance hkind rfl fun after => numbers_pure rfl
  · rename_i hkind
    refine numbers_advance hkind rfl fun first => ?_
    refine numbers_bind (ih.expression (false :: parens) first) fun inner second => ?_
    exact numbers_expect rfl fun _ after => numbers_spanFrom (numbers_pure rfl)
  · rename_i hkind
    rw [← bind_assoc]
    exact numbers_bind (ih.function parens place hkind) fun decl after => numbers_pure rfl
  · exact numbers_failAt _ _

theorem numbers_block (ih : NumbersAt fuel) (parens : List Bool) (place : Cursor) :
    Numbers (block (fuel + 1)) place (.settled parens) (.settled parens) []
      fun block => unnamedIn block.nodes := by
  refine numbers_peek (numbers_expect rfl fun _ first => ?_)
  refine numbers_bind (numbers_many (ih.statement parens) fuel first) fun statements second => ?_
  refine numbers_expect rfl fun _ after => numbers_spanFrom (numbers_pure ?_)
  rw [Block.nodes, unnamedIn_stmts, List.nil_append]

theorem numbers_function (ih : NumbersAt fuel) (parens : List Bool) (place : Cursor)
    (hkind : place.peek.kind = .fnWord) :
    Numbers (advance >>= fun _ => function (fuel + 1) place.peek.span) place (.settled parens)
      (.settled parens) [] fun decl => unnamedIn decl.nodes := by
  refine numbers_word hkind fun token name first => ?_
  refine numbers_expect rfl fun _ second => ?_
  refine numbers_enclosed false parens (fun _ _ _ _ _ => numbers_failHere _)
    (fun place => numbers_param fuel place) fun params third => ?_
  refine numbers_step (numbers_typeExprAfter? rfl rfl fuel third) fun result fourth => ?_
  refine numbers_bind (ih.block parens fourth) fun body after => numbers_spanFrom (numbers_pure ?_)
  rw [unnamedIn_fn, Block.nodes_eq]
  by_cases hname : token.kind = .identifier <;> simp [hname, Unnamed.of, Span.upTo, bare]

theorem numbers_conditional (ih : NumbersAt fuel) (parens : List Bool) (place : Cursor)
    (hkind : place.peek.kind = .ifWord) :
    Numbers (conditional (fuel + 1)) place (.settled parens) (.settled parens) []
      fun stmt => unnamedIn stmt.nodes := by
  refine numbers_advance hkind rfl fun first => ?_
  refine numbers_bind (ih.expression parens first) fun condition second => ?_
  refine numbers_bind (ih.block parens second) fun thenBlock third => ?_
  refine numbers_accept rfl (fun fourth => ?_) ?_
  · refine numbers_peek ?_
    split
    · rename_i hif
      refine numbers_bind (ih.conditional parens fourth hif) fun otherwise after => ?_
      exact numbers_spanFrom (numbers_pure (by simp [Stmt.nodes]))
    · refine numbers_bind (ih.block parens fourth) fun otherwise after => ?_
      exact numbers_spanFrom (numbers_pure (by simp [Stmt.nodes]))
    · exact numbers_failAt _ _
  · exact numbers_spanFrom (numbers_pure (by simp [Stmt.nodes]))

theorem numbers_statement (ih : NumbersAt fuel) (parens : List Bool) (place : Cursor) :
    Numbers (statement (fuel + 1)) place (.settled parens) (.settled parens) []
      fun stmt => unnamedIn stmt.nodes := by
  refine numbers_peek ?_
  split
  · rename_i hkind
    refine numbers_advance hkind rfl fun first => numbers_expectName fun name second => ?_
    refine numbers_step (numbers_typeExprAfter? rfl rfl fuel second) fun declared third => ?_
    refine numbers_behind rfl (ih.expression parens) fun init after => numbers_spanFrom ?_
    exact numbers_pure (by cases init <;> simp [Stmt.nodes])
  · exact numbers_bind (ih.block parens place) fun block after => numbers_pure rfl
  · rename_i hkind
    exact ih.conditional parens place hkind
  · rename_i hkind
    refine numbers_advance hkind rfl fun first => ?_
    refine numbers_bind (ih.expression parens first) fun condition second => ?_
    refine numbers_bind (ih.block parens second) fun body after => numbers_spanFrom ?_
    exact numbers_pure (by simp [Stmt.nodes])
  · rename_i hkind
    rw [← bind_assoc]
    exact numbers_bind (ih.function parens place hkind) fun decl after => numbers_pure rfl
  · rename_i hkind
    refine numbers_advance hkind rfl fun first => numbers_peek ?_
    refine numbers_ite (fun _ => ?_) fun _ => ?_
    · rw [pure_bind]
      exact numbers_spanFrom (numbers_pure rfl)
    · refine numbers_bind (numbers_optional (ih.expression parens first)) fun value after => ?_
      exact numbers_spanFrom (numbers_pure (by cases value <;> simp [Stmt.nodes]))
  · exact numbers_bind (ih.expression parens place) fun expr after => numbers_pure rfl

end Steps

theorem numbers_function_zero (parens : List Bool) (place : Cursor)
    (hkind : place.peek.kind = .fnWord) :
    Numbers (advance >>= fun _ => function 0 place.peek.span) place (.settled parens)
      (.settled parens) [] fun decl => unnamedIn decl.nodes := by
  intro hfinish
  obtain ⟨after, -, hadvance⟩ := advance_passes (by decide) hkind hfinish
  simp only [bind, EStateM.bind, hadvance]
  exact .inl rfl

theorem numbersAt : (fuel : Nat) → NumbersAt fuel
  | 0 => ⟨fun _ _ => numbers_exhausted, fun _ _ => numbers_exhausted, fun _ _ => numbers_exhausted,
      numbers_function_zero, fun _ _ => numbers_exhausted, fun _ _ => numbers_exhausted,
      fun _ _ _ => numbers_exhausted⟩
  | fuel + 1 =>
      have ih := numbersAt fuel
      ⟨numbers_expression ih, numbers_unary ih, numbers_primary ih, numbers_function ih,
        numbers_block ih, numbers_statement ih, numbers_conditional ih⟩

end Parse

end Scriptlet
