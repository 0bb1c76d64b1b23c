import Scriptlet.Proofs.Tree.Names
import Scriptlet.Syntax.Parse

/-! Parsing elsewhere. A way of parsing passes some tokens, and sees no further than the next one.
So in any other list in which the same tokens are passed and the same one comes next it ends in the
same way. The number of the next function without a name goes into the names of such functions and
nowhere else, so with later numbers the same is read up to these names. More fuel changes nothing
either. All of this is said at once, of a way of parsing and one that repeats it. -/

namespace Scriptlet

namespace Cursor

/-- The same place in another list, where functions without a name get later numbers. -/
def elsewhere (cursor : Cursor) (rest : List Token) (finish : Token) (distance : Nat) : Cursor :=
  { cursor with rest, finish, unnamed := cursor.unnamed + distance }

structure Shows (cursor : Cursor) (rest : List Token) (finish : Token) : Prop where
  head : rest.head? = cursor.rest.head?
  finish : cursor.rest = [] → finish = cursor.finish

theorem Shows.peek {cursor : Cursor} {rest : List Token} {finish : Token}
    (h : cursor.Shows rest finish) (distance : Nat) :
    (cursor.elsewhere rest finish distance).peek = cursor.peek := by
  rw [Cursor.peek, Cursor.peek, elsewhere, h.head]
  cases hrest : cursor.rest with
  | nil => exact h.finish hrest
  | cons token more => rfl

theorem Shows.behind {before after : Cursor} {passed rest : List Token} {finish : Token}
    (h : after.Shows rest finish) (hrest : before.rest = passed ++ after.rest)
    (hfinish : after.finish = before.finish) : before.Shows (passed ++ rest) finish := by
  refine ⟨?_, fun hnil => ?_⟩
  · rw [hrest, List.head?_append, List.head?_append, h.head]
  · rw [hrest, List.append_eq_nil_iff] at hnil
    rw [h.finish hnil.2, hfinish]

def Moves (numbers : Nat → Nat) (before after : Cursor) (distance : Nat) : Prop :=
  ∀ number, before.unnamed ≤ number → number < after.unnamed →
    numbers number = number + distance

end Cursor

namespace Parse

variable {α β α' β' : Type}

def left : EStateM.Result ParseError Cursor α → Cursor
  | .ok _ after | .error _ after => after

def elsewhere (change : α → β) (rest : List Token) (finish : Token) (distance : Nat) :
    EStateM.Result ParseError Cursor α → EStateM.Result ParseError Cursor β
  | .ok value after => .ok (change value) (after.elsewhere rest finish distance)
  | .error e after => .error e (after.elsewhere rest finish distance)

@[simp] theorem elsewhere_left (result : EStateM.Result ParseError Cursor α) :
    elsewhere id (left result).rest (left result).finish 0 result = result := by
  cases result <;> rfl

def IsExhausted : EStateM.Result ParseError Cursor α → Prop
  | .ok _ _ => False
  | .error e _ => e.fault = .exhausted

/-- Unless the first way of parsing runs out of fuel, the second one ends like it in every list in
which the same tokens are passed and the same one comes next, and with all later numbers; and its
answer is changed as the numbers are that are used up on the way. -/
def Repeats (numbers : Nat → Nat) (change : α → β) (parse : Parse α) (parse' : Parse β) : Prop :=
  ∀ cursor, ¬IsExhausted (parse cursor) → ∃ passed,
    cursor.rest = passed ++ (left (parse cursor)).rest ∧
    (left (parse cursor)).finish = cursor.finish ∧
    cursor.unnamed ≤ (left (parse cursor)).unnamed ∧
    ∀ rest finish distance, (left (parse cursor)).Shows rest finish →
      cursor.Moves numbers (left (parse cursor)) distance →
      parse' (cursor.elsewhere (passed ++ rest) finish distance) =
        elsewhere change rest finish distance (parse cursor)

section Rules

variable {numbers : Nat → Nat} {change : α → β} {parse : Parse α} {parse' : Parse β}

theorem repeats_still (hleft : ∀ cursor, left (parse cursor) = cursor)
    (h : ∀ cursor rest finish distance, parse' (cursor.elsewhere rest finish distance) =
      elsewhere change rest finish distance (parse cursor)) :
    Repeats numbers change parse parse' := fun cursor _ =>
  ⟨[], congrArg Cursor.rest (hleft cursor).symm, congrArg Cursor.finish (hleft cursor),
    Nat.le_of_eq (congrArg Cursor.unnamed (hleft cursor).symm),
    fun rest finish distance _ _ => h cursor rest finish distance⟩

theorem repeats_pure {value : α} {value' : β} (h : value' = change value) :
    Repeats numbers change (pure value) (pure value') := by
  subst h
  exact repeats_still (fun _ => rfl) fun _ _ _ _ => rfl

theorem repeats_failAt (fault : ParseFault) (span : Span) :
    Repeats numbers change (failAt fault span) (failAt fault span) :=
  repeats_still (fun _ => rfl) fun _ _ _ _ => rfl

theorem repeats_spanFrom (first : Span) : Repeats numbers id (spanFrom first) (spanFrom first) :=
  repeats_still (fun _ => rfl) fun _ _ _ _ => rfl

theorem repeats_freshName : Repeats numbers (renumbered numbers) freshName freshName := by
  refine fun cursor _ => ⟨[], rfl, rfl, Nat.le_succ _, fun rest finish distance _ hnumbers => ?_⟩
  have hnumber : numbers cursor.unnamed = cursor.unnamed + distance :=
    hnumbers _ (Nat.le_refl _) (Nat.lt_succ_self _)
  simp only [freshName, elsewhere, renumbered_unnamed, hnumber, Cursor.elsewhere]
  rw [Nat.add_right_comm]
  rfl

theorem repeats_exhausted : Repeats numbers change exhausted parse' := fun _ h => absurd rfl h

theorem repeats_bind {next : α → Parse α'} {next' : β → Parse β'} {change' : α' → β'}
    (h : Repeats numbers change parse parse')
    (hnext : ∀ value, Repeats numbers change' (next value) (next' (change value))) :
    Repeats numbers change' (parse >>= next) (parse' >>= next') := by
  intro cursor hlasts
  simp only [bind, EStateM.bind] at hlasts ⊢
  have hfirst := h cursor
  cases hparse : parse cursor with
  | error e after =>
      rw [hparse] at hlasts hfirst
      obtain ⟨passed, hrest, hfinish, hle, hsame⟩ := hfirst hlasts
      refine ⟨passed, hrest, hfinish, hle, fun rest finish distance hshows hnumbers => ?_⟩
      rw [hsame rest finish distance hshows hnumbers]
      rfl
  | ok value middle =>
      rw [hparse] at hlasts hfirst
      obtain ⟨passed, hrest, hfinish, hle, hsame⟩ := hfirst id
      obtain ⟨others, hrest', hfinish', hle', hsame'⟩ := hnext value middle hlasts
      refine ⟨passed ++ others, ?_, hfinish'.trans hfinish, Nat.le_trans hle hle',
        fun rest finish distance hshows hnumbers => ?_⟩
      · rw [List.append_assoc]
        exact hrest.trans (congrArg _ hrest')
      · have hearlier := hsame (others ++ rest) finish distance (hshows.behind hrest' hfinish')
          fun number hfrom hto => hnumbers number hfrom (Nat.lt_of_lt_of_le hto hle')
        rw [List.append_assoc, hearlier]
        exact hsame' rest finish distance hshows fun number hfrom =>
          hnumbers number (Nat.le_trans hle hfrom)

theorem repeats_step {step step' : Parse α'} {next : α' → Parse α} {next' : α' → Parse β}
    (h : Repeats numbers id step step')
    (hnext : ∀ value, Repeats numbers change (next value) (next' value)) :
    Repeats numbers change (step >>= next) (step' >>= next') :=
  repeats_bind h hnext

theorem repeats_map {f : α → α'} {f' : β → β'} {change' : α' → β'}
    (h : Repeats numbers change parse parse')
    (hf : ∀ value, f' (change value) = change' (f value)) :
    Repeats numbers change' (f <$> parse) (f' <$> parse') := by
  rw [map_eq_pure_bind, map_eq_pure_bind]
  exact repeats_bind h fun value => repeats_pure (hf value)

theorem repeats_ite {condition : Prop} [Decidable condition] {other : Parse α} {other' : Parse β}
    (hparse : condition → Repeats numbers change parse parse')
    (hother : ¬condition → Repeats numbers change other other') :
    Repeats numbers change (if condition then parse else other)
      (if condition then parse' else other') := by
  split
  · exact hparse ‹_›
  · exact hother ‹_›

theorem repeats_either {condition : Prop} [Decidable condition] {first second : Parse α'}
    {first' second' : Parse β'} (before : α' → β') {next : α' → Parse α} {next' : β' → Parse β}
    (hfirst : condition → Repeats numbers before first first')
    (hsecond : ¬condition → Repeats numbers before second second')
    (hnext : ∀ value, Repeats numbers change (next value) (next' (before value))) :
    Repeats numbers change (if condition then first >>= next else second >>= next)
      (if condition then first' >>= next' else second' >>= next') :=
  repeats_ite (fun h => repeats_bind (hfirst h) hnext)
    fun h => repeats_bind (hsecond h) hnext

theorem repeats_optional (h : Repeats numbers change parse parse') :
    Repeats numbers (Option.map change) (some <$> parse) (some <$> parse') :=
  repeats_map h fun _ => rfl

theorem repeats_peek : Repeats numbers id peek peek := fun cursor _ =>
  ⟨[], rfl, rfl, Nat.le_refl _, fun rest finish distance hshows _ =>
    congrArg (EStateM.Result.ok · (cursor.elsewhere rest finish distance)) (hshows.peek distance)⟩

theorem repeats_advance : Repeats numbers id advance advance := by
  rintro ⟨rest, finish, passed, unnamed⟩ _
  cases rest with
  | nil =>
      refine ⟨[], rfl, rfl, Nat.le_refl _, fun rest' finish' distance hshows _ => ?_⟩
      obtain rfl : rest' = [] := List.head?_eq_none_iff.mp hshows.head
      obtain rfl : finish' = finish := hshows.finish rfl
      rfl
  | cons token more => exact ⟨[token], rfl, rfl, Nat.le_refl _, fun _ _ _ _ _ => rfl⟩

theorem repeats_accept (kind : Kind) : Repeats numbers id (accept kind) (accept kind) :=
  repeats_step repeats_peek fun _ =>
    repeats_ite (fun _ => repeats_step repeats_advance fun _ => repeats_pure rfl)
      fun _ => repeats_pure rfl

theorem repeats_expect (kind : Kind) (what : Expected) :
    Repeats numbers id (expect kind what) (expect kind what) :=
  repeats_step repeats_peek fun _ =>
    repeats_ite (fun _ => repeats_advance) fun _ => repeats_failAt _ _

theorem repeats_expectName (what : Expected) :
    Repeats numbers id (expectName what) (expectName what) :=
  repeats_step (repeats_expect _ what) fun _ => repeats_pure rfl

theorem repeats_failHere (fault : ParseFault) :
    Repeats numbers change (do failAt fault (← peek).span) (do failAt fault (← peek).span) :=
  repeats_step repeats_peek fun token => repeats_failAt fault token.span

end Rules

section Lists

variable {numbers : Nat → Nat} {change : α → β} {item : Parse α} {item' : Parse β}

/-- Where there is more room, what takes over later must repeat what takes over. -/
theorem repeats_separated {full : Parse (List α)} {full' : Parse (List β)} {more : Nat}
    (hfull : Repeats numbers (List.map change) full (separated full' item' more))
    (hitem : Repeats numbers change item item') : (room : Nat) →
    Repeats numbers (List.map change) (separated full item room)
      (separated full' item' (room + more))
  | 0 => by rwa [Nat.zero_add]
  | room + 1 => by
      rw [Nat.add_right_comm]
      refine repeats_bind hitem fun first => repeats_step (repeats_accept _) fun _ => ?_
      refine repeats_ite (fun _ => ?_) fun _ => repeats_pure rfl
      exact repeats_bind (repeats_separated hfull hitem room) fun rest => repeats_pure rfl

theorem repeats_separatedUntil (close : Kind) {full : Parse (List α)} {full' : Parse (List β)}
    {room room' more : Nat} (hroom : room + more = room')
    (hfull : Repeats numbers (List.map change) full (separated full' item' more))
    (hitem : Repeats numbers change item item') :
    Repeats numbers (List.map change) (separatedUntil close full item room)
      (separatedUntil close full' item' room') := by
  subst hroom
  exact repeats_step repeats_peek fun _ =>
    repeats_ite (fun _ => repeats_pure rfl) fun _ => repeats_separated hfull hitem room

theorem repeats_many (ends : Kind → Bool) (h : Repeats numbers change item item') :
    {fuel fuel' : Nat} → fuel ≤ fuel' →
    Repeats numbers (List.map change) (many ends item fuel) (many ends item' fuel')
  | 0, _, _ => repeats_exhausted
  | fuel + 1, 0, hle => absurd hle (Nat.not_succ_le_zero _)
  | fuel + 1, fuel' + 1, hle => by
      refine repeats_step repeats_peek fun _ => repeats_ite (fun _ => repeats_pure rfl) fun _ => ?_
      refine repeats_bind h fun first => ?_
      exact repeats_bind (repeats_many ends h (Nat.le_of_succ_le_succ hle))
        fun rest => repeats_pure rfl

end Lists

section Types

variable {numbers : Nat → Nat}

theorem repeats_typeExpr : {fuel fuel' : Nat} → fuel ≤ fuel' →
    Repeats numbers id (typeExpr fuel) (typeExpr fuel')
  | 0, _, _ => repeats_exhausted
  | fuel + 1, 0, hle => absurd hle (Nat.not_succ_le_zero _)
  | fuel + 1, fuel' + 1, hle => by
      have hle := Nat.le_of_succ_le_succ hle
      have ih := @repeats_typeExpr fuel fuel' hle
      have hmore : Repeats numbers (List.map id) exhausted
          (separated exhausted (typeExpr fuel') (fuel' - fuel)) := repeats_exhausted
      have hparams := repeats_separatedUntil .rightParen (Nat.add_sub_of_le hle) hmore ih
      rw [List.map_id_fun] at hparams
      refine repeats_step repeats_peek fun token => ?_
      refine repeats_step (repeats_accept _) fun _ => repeats_ite (fun _ => ?_) fun _ => ?_
      · refine repeats_step (repeats_expect _ _) fun _ => repeats_step hparams fun params => ?_
        refine repeats_step (repeats_expect _ _) fun _ => ?_
        refine repeats_step (repeats_accept _) fun _ => ?_
        refine repeats_either _ (fun _ => repeats_optional ih) (fun _ => repeats_pure rfl)
          fun result => ?_
        rw [Option.map_id]
        exact repeats_step (repeats_spanFrom _) fun span => repeats_pure rfl
      · exact repeats_step (repeats_expectName _) fun name => repeats_pure rfl

variable {fuel fuel' : Nat}

theorem repeats_typeExprAfter? (mark : Kind) (hle : fuel ≤ fuel') :
    Repeats numbers id (typeExprAfter? mark fuel) (typeExprAfter? mark fuel') :=
  repeats_step (repeats_accept _) fun _ =>
    repeats_ite (fun _ => repeats_map (repeats_typeExpr hle) fun _ => rfl)
      fun _ => repeats_pure rfl

theorem repeats_param (hle : fuel ≤ fuel') : Repeats numbers id (param fuel) (param fuel') :=
  repeats_step repeats_peek fun _ => repeats_step (repeats_expectName _) fun _ =>
    repeats_step (repeats_typeExprAfter? _ hle) fun _ =>
      repeats_step (repeats_spanFrom _) fun _ => repeats_pure rfl

end Types

section Operators

variable {numbers : Nat → Nat} {operand operand' argument argument' : Parse Expr}

def RepeatsExpr (numbers : Nat → Nat) (parse parse' : Parse Expr) : Prop :=
  Repeats numbers (Expr.relabel (.renumber numbers)) parse parse'

theorem repeats_acceptBinary (ops : List BinaryOp) :
    Repeats numbers id (acceptBinary ops) (acceptBinary ops) := by
  refine repeats_step repeats_peek fun token => ?_
  split
  · refine repeats_ite (fun _ => ?_) fun _ => repeats_pure rfl
    exact repeats_step repeats_advance fun _ => repeats_pure rfl
  · exact repeats_pure rfl

theorem repeats_binaryTail (h : RepeatsExpr numbers operand operand') (ops : List BinaryOp) :
    {fuel fuel' : Nat} → fuel ≤ fuel' → (left : Expr) →
    RepeatsExpr numbers (binaryTail ops operand fuel left)
      (binaryTail ops operand' fuel' (left.relabel (.renumber numbers)))
  | 0, _, _, _ => repeats_exhausted
  | fuel + 1, 0, hle, _ => absurd hle (Nat.not_succ_le_zero _)
  | fuel + 1, fuel' + 1, hle, left => by
      refine repeats_step (repeats_acceptBinary ops) fun accepted => ?_
      cases accepted with
      | none => exact repeats_pure rfl
      | some op =>
          refine repeats_bind h fun right => ?_
          have hnext := repeats_binaryTail h ops (Nat.le_of_succ_le_succ hle)
            (.binary op left right ⟨left.span.upTo right.span, none⟩)
          simpa [RepeatsExpr, Expr.relabel] using hnext

theorem repeats_binary (h : RepeatsExpr numbers operand operand') {fuel fuel' : Nat}
    (hle : fuel ≤ fuel') : RepeatsExpr numbers (binary operand fuel) (binary operand' fuel') := by
  unfold binary
  induction BinaryOp.levels with
  | nil => exact h
  | cons ops levels ih =>
      exact repeats_bind ih fun left => repeats_binaryTail ih ops hle left

theorem repeats_callTail (h : RepeatsExpr numbers argument argument') :
    {fuel fuel' : Nat} → fuel ≤ fuel' → (callee : Expr) →
    RepeatsExpr numbers (callTail argument fuel callee)
      (callTail argument' fuel' (callee.relabel (.renumber numbers)))
  | 0, _, _, _ => repeats_exhausted
  | fuel + 1, 0, hle, _ => absurd hle (Nat.not_succ_le_zero _)
  | fuel + 1, fuel' + 1, hle, callee => by
      refine repeats_step (repeats_accept _) fun _ => ?_
      refine repeats_ite (fun _ => ?_) fun _ => repeats_pure rfl
      refine repeats_bind (repeats_separatedUntil _ (Nat.add_zero _) (repeats_failHere _) h)
        fun args => repeats_step (repeats_expect _ _) fun _ => ?_
      rw [Expr.span_relabel, Relabel.span_renumber]
      refine repeats_step (repeats_spanFrom _) fun span => ?_
      have hnext := repeats_callTail h (Nat.le_of_succ_le_succ hle) (.call callee args ⟨span, none⟩)
      simpa [RepeatsExpr, Expr.relabel] using hnext

end Operators

structure RepeatsAt (numbers : Nat → Nat) (fuel fuel' : Nat) : Prop where
  expression : RepeatsExpr numbers (expression fuel) (expression fuel')
  unary : RepeatsExpr numbers (unary fuel) (unary fuel')
  primary : RepeatsExpr numbers (primary fuel) (primary fuel')
  function : ∀ start, Repeats numbers (FnDecl.relabel (.renumber numbers)) (function fuel start)
    (function fuel' start)
  block : Repeats numbers (Block.relabel (.renumber numbers)) (block fuel) (block fuel')
  statement : Repeats numbers (Stmt.relabel (.renumber numbers)) (statement fuel)
    (statement fuel')
  conditional : Repeats numbers (Stmt.relabel (.renumber numbers)) (conditional fuel)
    (conditional fuel')

section Steps

variable {numbers : Nat → Nat} {fuel fuel' : Nat}

theorem repeats_expression (ih : RepeatsAt numbers fuel fuel') (hle : fuel ≤ fuel') :
    RepeatsExpr numbers (expression (fuel + 1)) (expression (fuel' + 1)) := by
  refine repeats_bind (repeats_binary ih.unary hle) fun target => ?_
  refine repeats_step (repeats_accept _) fun _ => ?_
  refine repeats_ite (fun _ => ?_) fun _ => repeats_pure rfl
  refine repeats_bind ih.expression fun value => ?_
  simp only [Expr.span_relabel, Relabel.span_renumber]
  cases target with
  | «variable» name mark => exact repeats_pure rfl
  | _ => exact repeats_failAt _ _

theorem repeats_unary (ih : RepeatsAt numbers fuel fuel') (hle : fuel ≤ fuel') :
    RepeatsExpr numbers (unary (fuel + 1)) (unary (fuel' + 1)) := by
  refine repeats_step repeats_peek fun token => ?_
  split
  · refine repeats_step repeats_advance fun _ => repeats_bind ih.unary fun operand => ?_
    exact repeats_pure (by simp [Expr.relabel])
  · exact repeats_bind ih.primary fun callee => repeats_callTail ih.expression hle callee

theorem repeats_primary (ih : RepeatsAt numbers fuel fuel') :
    RepeatsExpr numbers (primary (fuel + 1)) (primary (fuel' + 1)) := by
  refine repeats_step repeats_peek fun token => ?_
  split
  · refine repeats_step repeats_advance fun _ => ?_
    split
    · exact repeats_pure rfl
    · exact repeats_failAt _ _
  · refine repeats_step repeats_advance fun _ => ?_
    split
    · exact repeats_pure rfl
    · exact repeats_failAt _ _
  · exact repeats_step repeats_advance fun _ => repeats_pure rfl
  · exact repeats_step repeats_advance fun _ => repeats_pure rfl
  · exact repeats_step repeats_advance fun _ => repeats_pure rfl
  · refine repeats_step repeats_advance fun _ => repeats_bind ih.expression fun inner => ?_
    refine repeats_step (repeats_expect _ _) fun _ => ?_
    exact repeats_step (repeats_spanFrom _) fun span => repeats_pure rfl
  · refine repeats_step repeats_advance fun _ => repeats_bind (ih.function _) fun decl => ?_
    exact repeats_pure (by simp [Expr.relabel])
  · exact repeats_failAt _ _

theorem repeats_block (ih : RepeatsAt numbers fuel fuel') (hle : fuel ≤ fuel') :
    Repeats numbers (Block.relabel (.renumber numbers)) (block (fuel + 1)) (block (fuel' + 1)) := by
  refine repeats_step repeats_peek fun _ => repeats_step (repeats_expect _ _) fun _ => ?_
  refine repeats_bind (repeats_many _ ih.statement hle) fun statements => ?_
  refine repeats_step (repeats_expect _ _) fun _ => ?_
  exact repeats_step (repeats_spanFrom _) fun span => repeats_pure (by simp [Block.relabel])

theorem repeats_function (ih : RepeatsAt numbers fuel fuel') (hle : fuel ≤ fuel') (start : Span) :
    Repeats numbers (FnDecl.relabel (.renumber numbers)) (function (fuel + 1) start)
      (function (fuel' + 1) start) := by
  refine repeats_step repeats_peek fun token => ?_
  have hparams := repeats_separatedUntil .rightParen (Nat.add_zero maxArity)
    (repeats_failHere .tooManyParameters) (@repeats_param numbers fuel fuel' hle)
  rw [List.map_id_fun] at hparams
  refine repeats_either ((Relabel.renumber numbers).name (decide (token.kind ≠ .identifier)))
    (fun hanonymous => ?_) (fun hnamed => ?_) fun name => ?_
  · rw [decide_eq_true hanonymous]
    exact repeats_freshName
  · rw [decide_eq_false hnamed]
    exact repeats_map repeats_advance fun _ => rfl
  · refine repeats_step (repeats_expect _ _) fun _ => repeats_step hparams fun params => ?_
    refine repeats_step (repeats_expect _ _) fun _ => ?_
    refine repeats_step (repeats_typeExprAfter? _ hle) fun result => ?_
    refine repeats_bind ih.block fun body => ?_
    refine repeats_step (repeats_spanFrom _) fun span => repeats_pure ?_
    simp [FnDecl.relabel, Block.statements_relabel]

theorem repeats_conditional (ih : RepeatsAt numbers fuel fuel') :
    Repeats numbers (Stmt.relabel (.renumber numbers)) (conditional (fuel + 1))
      (conditional (fuel' + 1)) := by
  refine repeats_step repeats_advance fun start => ?_
  refine repeats_bind ih.expression fun condition => repeats_bind ih.block fun thenBlock => ?_
  refine repeats_step (repeats_accept _) fun _ => repeats_ite (fun _ => ?_) fun _ => ?_
  · refine repeats_step repeats_peek fun token => ?_
    split
    · refine repeats_bind ih.conditional fun otherwise => ?_
      exact repeats_step (repeats_spanFrom _) fun span => repeats_pure rfl
    · refine repeats_bind ih.block fun otherwise => ?_
      exact repeats_step (repeats_spanFrom _) fun span => repeats_pure rfl
    · exact repeats_failAt _ _
  · exact repeats_step (repeats_spanFrom _) fun span => repeats_pure rfl

theorem repeats_statement (ih : RepeatsAt numbers fuel fuel') (hle : fuel ≤ fuel') :
    Repeats numbers (Stmt.relabel (.renumber numbers)) (statement (fuel + 1))
      (statement (fuel' + 1)) := by
  refine repeats_step repeats_peek fun token => ?_
  split
  · refine repeats_step repeats_advance fun _ => ?_
    refine repeats_step (repeats_expectName _) fun name => ?_
    refine repeats_step (repeats_typeExprAfter? _ hle) fun declared => ?_
    refine repeats_step (repeats_accept _) fun _ => ?_
    refine repeats_either _ (fun _ => repeats_optional ih.expression)
      (fun _ => repeats_pure rfl) fun init => ?_
    refine repeats_step (repeats_spanFrom _) fun span => repeats_pure ?_
    simp [Stmt.relabel]
  · exact repeats_bind ih.block fun block => repeats_pure rfl
  · exact ih.conditional
  · refine repeats_step repeats_advance fun _ => ?_
    refine repeats_bind ih.expression fun condition => repeats_bind ih.block fun body => ?_
    exact repeats_step (repeats_spanFrom _) fun span => repeats_pure rfl
  · refine repeats_step repeats_advance fun _ => ?_
    exact repeats_bind (ih.function _) fun decl => repeats_pure rfl
  · refine repeats_step repeats_advance fun _ => repeats_step repeats_peek fun next => ?_
    refine repeats_either _ (fun _ => repeats_pure rfl)
      (fun _ => repeats_optional ih.expression) fun value => ?_
    refine repeats_step (repeats_spanFrom _) fun span => repeats_pure ?_
    simp [Stmt.relabel]
  · exact repeats_bind ih.expression fun expr => repeats_pure rfl

end Steps

theorem repeatsAt (numbers : Nat → Nat) : {fuel fuel' : Nat} → fuel ≤ fuel' →
    RepeatsAt numbers fuel fuel'
  | 0, _, _ => ⟨repeats_exhausted, repeats_exhausted, repeats_exhausted,
      fun _ => repeats_exhausted, repeats_exhausted, repeats_exhausted, repeats_exhausted⟩
  | _ + 1, 0, hle => absurd hle (Nat.not_succ_le_zero _)
  | _ + 1, _ + 1, hle =>
      have hle := Nat.le_of_succ_le_succ hle
      have ih := repeatsAt numbers hle
      ⟨repeats_expression ih hle, repeats_unary ih hle, repeats_primary ih,
        repeats_function ih hle, repeats_block ih hle, repeats_statement ih hle,
        repeats_conditional ih⟩

end Parse

end Scriptlet
