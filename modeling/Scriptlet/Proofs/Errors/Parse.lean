import Scriptlet.Proofs.Errors.Place
import Scriptlet.Proofs.Grammar.Extent
import Scriptlet.Proofs.Tree

/-! Parsing keeps to the source text. The spans of a program that is read lie in the text, and
so does the span of an error, which at the end of the text may be one byte long. -/

namespace Scriptlet

def Node.spans : Node → List Span
  | .expr e => [e.span]
  | .stmt s => [s.span]
  | .fn decl => decl.mark.span :: decl.params.map Param.span

def SpansWithin (source : String) (nodes : List Node) : Prop :=
  ∀ node ∈ nodes, ∀ span ∈ node.spans, span.Within source

section Spans

variable {source : String} {node : Node} {nodes first second : List Node}

@[simp] theorem spansWithin_nil : SpansWithin source [] := by simp [SpansWithin]

@[simp] theorem spansWithin_cons : SpansWithin source (node :: nodes) ↔
    (∀ span ∈ node.spans, span.Within source) ∧ SpansWithin source nodes := by
  simp [SpansWithin]

@[simp] theorem spansWithin_append : SpansWithin source (first ++ second) ↔
    SpansWithin source first ∧ SpansWithin source second := List.forall_mem_append

theorem SpansWithin.expr {expr : Expr} (h : SpansWithin source expr.nodes) :
    expr.span.Within source :=
  h _ expr.mem_nodes _ (List.mem_singleton.mpr rfl)

theorem SpansWithin.fn {decl : FnDecl} (h : SpansWithin source decl.nodes) :
    decl.mark.span.Within source :=
  h _ decl.mem_nodes _ List.mem_cons_self

theorem spansWithin_allNodes {exprs : List Expr}
    (h : ∀ expr ∈ exprs, SpansWithin source expr.nodes) :
    SpansWithin source (Expr.allNodes exprs) := by
  induction exprs with
  | nil => exact spansWithin_nil
  | cons expr rest ih =>
      rw [List.forall_mem_cons] at h
      exact spansWithin_append.mpr ⟨h.1, ih h.2⟩

theorem spansWithin_stmts {stmts : List Stmt}
    (h : ∀ stmt ∈ stmts, SpansWithin source stmt.nodes) :
    SpansWithin source (Stmt.allNodes stmts) := by
  induction stmts with
  | nil => exact spansWithin_nil
  | cons stmt rest ih =>
      rw [List.forall_mem_cons] at h
      exact spansWithin_append.mpr ⟨h.1, ih h.2⟩

end Spans

structure Cursor.Standing (source : String) (cursor : Cursor) : Prop where
  rest : ∀ token ∈ cursor.rest, token.Standing source
  finish : cursor.finish.Standing source
  passed : cursor.passed.Within source

/-- The error points into the source text, or at the one byte that would follow it. -/
def ParseError.PointsInto (source : String) (e : ParseError) : Prop :=
  e.span.Within source ∨ e.span = .atEnd source 1

namespace Parse

/-- Whatever stands in the source text is read as something with the property, or the error
points into the text. -/
def Keeps {α : Type} (source : String) (parse : Parse α) (property : α → Prop) : Prop :=
  ∀ cursor, Cursor.Standing source cursor →
    match parse cursor with
    | .ok value left => Cursor.Standing source left ∧ property value
    | .error e _ => e.PointsInto source

section Rules

variable {α β : Type} {source : String} {parse : Parse α} {property : α → Prop}

theorem keeps_pure {value : α} (h : property value) : Keeps source (pure value) property :=
  fun _ hcursor => ⟨hcursor, h⟩

theorem keeps_bind {next : α → Parse β} {after : β → Prop} (hparse : parse.Keeps source property)
    (hnext : ∀ value, property value → (next value).Keeps source after) :
    (parse >>= next).Keeps source after := by
  intro cursor hcursor
  have h := hparse cursor hcursor
  simp only [bind, EStateM.bind]
  cases heq : parse cursor with
  | ok value left =>
      rw [heq] at h
      exact hnext value h.2 left h.1
  | error e left =>
      rw [heq] at h
      exact h

theorem Keeps.mono {weaker : α → Prop} (h : parse.Keeps source property)
    (himp : ∀ value, property value → weaker value) : parse.Keeps source weaker := by
  rw [← bind_pure parse]
  exact keeps_bind h fun value hvalue => keeps_pure (himp value hvalue)

theorem keeps_step {next : α → Parse β} {after : β → Prop} (hparse : parse.Keeps source property)
    (hnext : ∀ value, (next value).Keeps source after) : (parse >>= next).Keeps source after :=
  keeps_bind hparse fun value _ => hnext value

theorem keeps_map {f : α → β} {after : β → Prop} (h : parse.Keeps source fun a => after (f a)) :
    (f <$> parse).Keeps source after := by
  rw [map_eq_pure_bind]
  exact keeps_bind h fun value hvalue => keeps_pure hvalue

theorem keeps_optional (h : parse.Keeps source property) :
    (some <$> parse).Keeps source fun answer => ∀ value ∈ answer, property value :=
  keeps_map (h.mono fun value hvalue same hsame => by rwa [← Option.some.inj hsame])

theorem keeps_ite {condition : Prop} [Decidable condition] {first second : Parse α}
    (hfirst : first.Keeps source property) (hsecond : second.Keeps source property) :
    (if condition then first else second).Keeps source property := by
  split
  · exact hfirst
  · exact hsecond

theorem keeps_either {condition : Prop} [Decidable condition] {other : Parse α}
    {next : α → Parse β} {after : β → Prop} (hparse : parse.Keeps source property)
    (hother : other.Keeps source property)
    (hnext : ∀ value, property value → (next value).Keeps source after) :
    (if condition then parse >>= next else other >>= next).Keeps source after :=
  keeps_ite (keeps_bind hparse hnext) (keeps_bind hother hnext)

theorem keeps_failAt (fault : ParseFault) {span : Span} (h : span.Within source) :
    (failAt fault span).Keeps source property := fun _ _ => .inl h

end Rules

section Steps

variable {α : Type} {source : String} {property : α → Prop}

theorem keeps_peek : peek.Keeps source fun token => token.Standing source := by
  intro cursor hcursor
  refine ⟨hcursor, ?_⟩
  rw [Cursor.peek]
  cases hrest : cursor.rest with
  | nil => exact hcursor.finish
  | cons token rest => exact hcursor.rest token (by simp [hrest])

theorem keeps_advance : advance.Keeps source fun token => token.Standing source := by
  intro cursor hcursor
  obtain ⟨rest, finish, passed, unnamed⟩ := cursor
  cases rest with
  | nil => exact ⟨hcursor, hcursor.finish⟩
  | cons token rest =>
      obtain ⟨htoken, hrest⟩ := List.forall_mem_cons.mp hcursor.rest
      exact ⟨⟨hrest, hcursor.finish, htoken.within⟩, htoken⟩

theorem keeps_freshName : freshName.Keeps source fun _ => True :=
  fun _ hcursor => ⟨⟨hcursor.rest, hcursor.finish, hcursor.passed⟩, trivial⟩

theorem keeps_spanFrom {start : Span} (h : start.Within source) :
    (spanFrom start).Keeps source fun span => span.Within source :=
  fun _ hcursor => ⟨hcursor, h.upTo hcursor.passed⟩

theorem keeps_failHere (fault : ParseFault) :
    Keeps source (do failAt fault (← peek).span : Parse α) property :=
  keeps_bind keeps_peek fun _ htoken => keeps_failAt fault htoken.within

theorem keeps_exhausted : exhausted.Keeps source property := keeps_failHere _

theorem keeps_accept (kind : Kind) : (accept kind).Keeps source fun _ => True :=
  keeps_step keeps_peek fun _ =>
    keeps_ite (keeps_step keeps_advance fun _ => keeps_pure trivial) (keeps_pure trivial)

theorem keeps_expect (kind : Kind) (what : Expected) :
    (expect kind what).Keeps source fun token => token.Standing source := by
  refine keeps_bind keeps_peek fun token htoken => keeps_ite keeps_advance fun _ _ => ?_
  show ParseError.PointsInto source
    ⟨_, ⟨token.span.offset, max token.span.len 1, token.span.line⟩⟩
  rcases htoken.room with hroom | hend
  · rw [Nat.max_eq_left hroom]
    exact .inl htoken.within
  · rw [hend]
    exact .inr rfl

theorem keeps_expectName (what : Expected) : (expectName what).Keeps source fun _ => True :=
  keeps_step (keeps_expect _ _) fun _ => keeps_pure trivial

theorem keeps_separated {full : Parse (List α)} {item : Parse α}
    (hfull : full.Keeps source fun items => ∀ a ∈ items, property a)
    (hitem : item.Keeps source property) :
    (room : Nat) → (separated full item room).Keeps source fun items => ∀ a ∈ items, property a
  | 0 => hfull
  | room + 1 => by
      refine keeps_bind hitem fun first hfirst => keeps_step (keeps_accept _) fun _ => ?_
      refine keeps_ite (keeps_bind (keeps_separated hfull hitem room) fun rest hrest => ?_) ?_
      · exact keeps_pure (List.forall_mem_cons.mpr ⟨hfirst, hrest⟩)
      · exact keeps_pure (by simpa using hfirst)

theorem keeps_separatedUntil {close : Kind} {full : Parse (List α)} {item : Parse α}
    (hfull : full.Keeps source fun items => ∀ a ∈ items, property a)
    (hitem : item.Keeps source property) (room : Nat) :
    (separatedUntil close full item room).Keeps source fun items => ∀ a ∈ items, property a :=
  keeps_step keeps_peek fun _ =>
    keeps_ite (keeps_pure (by simp)) (keeps_separated hfull hitem room)

theorem keeps_many {ends : Kind → Bool} {item : Parse α} (hitem : item.Keeps source property) :
    (fuel : Nat) → (many ends item fuel).Keeps source fun items => ∀ a ∈ items, property a
  | 0 => keeps_exhausted
  | fuel + 1 => by
      refine keeps_step keeps_peek fun _ => keeps_ite (keeps_pure (by simp)) ?_
      refine keeps_bind hitem fun first hfirst => ?_
      refine keeps_bind (keeps_many hitem fuel) fun rest hrest => ?_
      exact keeps_pure (List.forall_mem_cons.mpr ⟨hfirst, hrest⟩)

theorem keeps_typeExpr : (fuel : Nat) → (typeExpr fuel).Keeps source fun _ => True
  | 0 => keeps_exhausted
  | fuel + 1 => by
      have hparams : (separatedUntil .rightParen exhausted (typeExpr fuel) fuel).Keeps source
          fun items => ∀ item ∈ items, True :=
        keeps_separatedUntil keeps_exhausted (keeps_typeExpr fuel) fuel
      have hresult : (some <$> typeExpr fuel).Keeps source fun _ => True :=
        keeps_map ((keeps_typeExpr fuel).mono fun _ _ => trivial)
      refine keeps_bind keeps_peek fun token htoken => keeps_step (keeps_accept _) fun _ => ?_
      refine keeps_ite (keeps_step (keeps_expect _ _) fun _ => keeps_step hparams fun _ => ?_) ?_
      · refine keeps_step (keeps_expect _ _) fun _ => keeps_step (keeps_accept _) fun _ => ?_
        refine keeps_either hresult (keeps_pure trivial) fun _ _ => ?_
        exact keeps_step (keeps_spanFrom htoken.within) fun _ => keeps_pure trivial
      · exact keeps_step (keeps_expectName _) fun _ => keeps_pure trivial

theorem keeps_typeExprAfter? (mark : Kind) (fuel : Nat) :
    (typeExprAfter? mark fuel).Keeps source fun _ => True :=
  keeps_step (keeps_accept _) fun _ =>
    keeps_ite (keeps_map ((keeps_typeExpr fuel).mono fun _ _ => trivial)) (keeps_pure trivial)

theorem keeps_param (fuel : Nat) :
    (param fuel).Keeps source fun param => param.span.Within source :=
  keeps_bind keeps_peek fun _ htoken => keeps_step (keeps_expectName _) fun _ =>
    keeps_step (keeps_typeExprAfter? _ _) fun _ =>
      keeps_bind (keeps_spanFrom htoken.within) fun _ hspan => keeps_pure hspan

theorem keeps_acceptBinary (ops : List BinaryOp) :
    (acceptBinary ops).Keeps source fun _ => True := by
  refine keeps_step keeps_peek fun token => ?_
  split
  · exact keeps_ite (keeps_step keeps_advance fun _ => keeps_pure trivial) (keeps_pure trivial)
  · exact keeps_pure trivial

end Steps

section Phrases

variable {source : String} {operand argument : Parse Expr}

theorem keeps_literal (value : Literal) {span : Span} (h : span.Within source) :
    (literal value span).Keeps source fun expr => SpansWithin source expr.nodes :=
  keeps_pure (by simpa [Expr.nodes, Node.spans, Expr.span, Expr.mark] using h)

theorem keeps_binaryTail
    (hoperand : operand.Keeps source fun expr => SpansWithin source expr.nodes)
    (ops : List BinaryOp) : (fuel : Nat) → (left : Expr) → SpansWithin source left.nodes →
    (binaryTail ops operand fuel left).Keeps source fun expr => SpansWithin source expr.nodes
  | 0, _, _ => keeps_exhausted
  | fuel + 1, left, hleft => by
      refine keeps_step (keeps_acceptBinary ops) fun accepted => ?_
      cases accepted with
      | none => exact keeps_pure hleft
      | some op =>
          refine keeps_bind hoperand fun right hright => ?_
          refine keeps_binaryTail hoperand ops fuel _ ?_
          have hspan := hleft.expr.upTo hright.expr
          simpa [Expr.nodes, Node.spans, Expr.span, Expr.mark, hleft, hright] using hspan

theorem keeps_binary (hoperand : operand.Keeps source fun expr => SpansWithin source expr.nodes)
    (fuel : Nat) :
    (binary operand fuel).Keeps source fun expr => SpansWithin source expr.nodes := by
  unfold binary
  induction BinaryOp.levels with
  | nil => exact hoperand
  | cons ops levels ih =>
      exact keeps_bind ih fun left hleft => keeps_binaryTail ih ops fuel left hleft

theorem keeps_callTail
    (hargument : argument.Keeps source fun expr => SpansWithin source expr.nodes) :
    (fuel : Nat) → (callee : Expr) → SpansWithin source callee.nodes →
    (callTail argument fuel callee).Keeps source fun expr => SpansWithin source expr.nodes
  | 0, _, _ => keeps_exhausted
  | fuel + 1, callee, hcallee => by
      refine keeps_step (keeps_accept _) fun _ => keeps_ite ?_ (keeps_pure hcallee)
      refine keeps_bind (keeps_separatedUntil (keeps_failHere _) hargument maxArity)
        fun args hargs => ?_
      refine keeps_step (keeps_expect _ _) fun _ => ?_
      refine keeps_bind (keeps_spanFrom hcallee.expr) fun span hspan => ?_
      refine keeps_callTail hargument fuel _ ?_
      simp [Expr.nodes, Node.spans, Expr.span, Expr.mark, hcallee, spansWithin_allNodes hargs,
        hspan]

end Phrases

structure KeepsAt (source : String) (fuel : Nat) : Prop where
  expression : (expression fuel).Keeps source fun expr => SpansWithin source expr.nodes
  unary : (unary fuel).Keeps source fun expr => SpansWithin source expr.nodes
  primary : (primary fuel).Keeps source fun expr => SpansWithin source expr.nodes
  function : ∀ start : Span, start.Within source →
    (function fuel start).Keeps source fun decl => SpansWithin source decl.nodes
  block : (block fuel).Keeps source fun block =>
    block.span.Within source ∧ SpansWithin source block.nodes
  statement : (statement fuel).Keeps source fun stmt => SpansWithin source stmt.nodes
  conditional : (conditional fuel).Keeps source fun stmt => SpansWithin source stmt.nodes

section Phrase

variable {source : String} {fuel : Nat}

theorem keeps_expression (ih : KeepsAt source fuel) :
    (expression (fuel + 1)).Keeps source fun expr => SpansWithin source expr.nodes := by
  refine keeps_bind (keeps_binary ih.unary fuel) fun target htarget => ?_
  refine keeps_step (keeps_accept _) fun _ => keeps_ite ?_ (keeps_pure htarget)
  refine keeps_bind ih.expression fun value hvalue => ?_
  have hspan := htarget.expr.upTo hvalue.expr
  simp only
  split
  · exact keeps_pure (by simpa [Expr.nodes, Node.spans, Expr.span, Expr.mark, hvalue] using hspan)
  · exact keeps_failAt _ hspan

theorem keeps_unary (ih : KeepsAt source fuel) :
    (unary (fuel + 1)).Keeps source fun expr => SpansWithin source expr.nodes := by
  refine keeps_bind keeps_peek fun token htoken => ?_
  split
  · refine keeps_step keeps_advance fun _ => keeps_bind ih.unary fun operand hoperand => ?_
    have hspan := htoken.within.upTo hoperand.expr
    exact keeps_pure (by
      simpa [Expr.nodes, Node.spans, Expr.span, Expr.mark, hoperand] using hspan)
  · exact keeps_bind ih.primary fun callee hcallee =>
      keeps_callTail ih.expression fuel callee hcallee

theorem keeps_primary (ih : KeepsAt source fuel) :
    (primary (fuel + 1)).Keeps source fun expr => SpansWithin source expr.nodes := by
  refine keeps_bind keeps_peek fun token htoken => ?_
  have hspan := htoken.within
  split
  · refine keeps_step keeps_advance fun _ => ?_
    split
    · exact keeps_literal _ hspan
    · exact keeps_failAt _ hspan
  · refine keeps_step keeps_advance fun _ => ?_
    split
    · exact keeps_literal _ hspan
    · exact keeps_failAt _ hspan
  · exact keeps_step keeps_advance fun _ => keeps_literal _ hspan
  · exact keeps_step keeps_advance fun _ => keeps_literal _ hspan
  · refine keeps_step keeps_advance fun _ => keeps_pure ?_
    simpa [Expr.nodes, Node.spans, Expr.span, Expr.mark] using hspan
  · refine keeps_step keeps_advance fun _ => keeps_bind ih.expression fun inner hinner => ?_
    refine keeps_step (keeps_expect _ _) fun _ => ?_
    refine keeps_bind (keeps_spanFrom hspan) fun span hspan => keeps_pure ?_
    simp [Expr.nodes, Node.spans, Expr.span, Expr.mark, hinner, hspan]
  · refine keeps_step keeps_advance fun _ => keeps_bind (ih.function _ hspan) fun decl hdecl => ?_
    exact keeps_pure (by simpa [Expr.nodes, Node.spans, Expr.span, Expr.mark, hdecl] using hdecl.fn)
  · exact keeps_failAt _ hspan

theorem keeps_block (ih : KeepsAt source fuel) :
    (block (fuel + 1)).Keeps source fun block =>
      block.span.Within source ∧ SpansWithin source block.nodes := by
  refine keeps_bind keeps_peek fun token htoken => keeps_step (keeps_expect _ _) fun _ => ?_
  refine keeps_bind (keeps_many ih.statement fuel) fun statements hstatements => ?_
  refine keeps_step (keeps_expect _ _) fun _ => ?_
  refine keeps_bind (keeps_spanFrom htoken.within) fun span hspan => keeps_pure ⟨hspan, ?_⟩
  simpa [Block.nodes] using spansWithin_stmts hstatements

theorem keeps_function (ih : KeepsAt source fuel) {start : Span} (hstart : start.Within source) :
    (function (fuel + 1) start).Keeps source fun decl => SpansWithin source decl.nodes := by
  refine keeps_step keeps_peek fun token => ?_
  have hnamed : ((·.lexeme) <$> advance).Keeps source fun _ => True :=
    keeps_map (keeps_advance.mono fun _ _ => trivial)
  refine keeps_either keeps_freshName hnamed fun name _ => keeps_step (keeps_expect _ _) fun _ => ?_
  refine keeps_bind (keeps_separatedUntil (keeps_failHere _) (keeps_param fuel) maxArity)
    fun params hparams => ?_
  refine keeps_step (keeps_expect _ _) fun _ => keeps_step (keeps_typeExprAfter? _ _) fun _ => ?_
  refine keeps_bind ih.block fun body hbody => ?_
  refine keeps_bind (keeps_spanFrom hstart) fun span hspan => keeps_pure ?_
  obtain ⟨statements, _⟩ := body
  have hnodes : SpansWithin source (Stmt.allNodes statements) := hbody.2
  simpa [FnDecl.nodes, Node.spans, hspan, hnodes] using hparams

theorem keeps_statement (ih : KeepsAt source fuel) :
    (statement (fuel + 1)).Keeps source fun stmt => SpansWithin source stmt.nodes := by
  refine keeps_bind keeps_peek fun token htoken => ?_
  have hstart := htoken.within
  split
  · refine keeps_step keeps_advance fun _ => keeps_step (keeps_expectName _) fun _ => ?_
    refine keeps_step (keeps_typeExprAfter? _ _) fun _ => keeps_step (keeps_accept _) fun _ => ?_
    refine keeps_either (keeps_optional ih.expression) (keeps_pure nofun) fun init hinit => ?_
    refine keeps_bind (keeps_spanFrom hstart) fun span hspan => keeps_pure ?_
    cases init with
    | none => simpa [Stmt.nodes, Node.spans, Stmt.span] using hspan
    | some init => simpa [Stmt.nodes, Node.spans, Stmt.span, hspan] using hinit
  · refine keeps_bind ih.block fun block hblock => keeps_pure ?_
    simpa [Stmt.nodes, Node.spans, Stmt.span] using hblock
  · exact ih.conditional
  · refine keeps_step keeps_advance fun _ => keeps_bind ih.expression fun condition hcondition => ?_
    refine keeps_bind ih.block fun body hbody => ?_
    refine keeps_bind (keeps_spanFrom hstart) fun span hspan => keeps_pure ?_
    simp [Stmt.nodes, Node.spans, Stmt.span, hcondition, hbody.2, hspan]
  · refine keeps_step keeps_advance fun _ => keeps_bind (ih.function _ hstart) fun decl hdecl => ?_
    exact keeps_pure (by simpa [Stmt.nodes, Node.spans, Stmt.span, hdecl] using hdecl.fn)
  · refine keeps_step keeps_advance fun _ => keeps_step keeps_peek fun _ => ?_
    refine keeps_either (keeps_pure nofun) (keeps_optional ih.expression) fun value hvalue => ?_
    refine keeps_bind (keeps_spanFrom hstart) fun span hspan => keeps_pure ?_
    cases value with
    | none => simpa [Stmt.nodes, Node.spans, Stmt.span] using hspan
    | some value => simpa [Stmt.nodes, Node.spans, Stmt.span, hspan] using hvalue
  · refine keeps_bind ih.expression fun expr hexpr => keeps_pure ?_
    simpa [Stmt.nodes, Node.spans, Stmt.span, hexpr] using hexpr.expr

theorem keeps_conditional (ih : KeepsAt source fuel) :
    (conditional (fuel + 1)).Keeps source fun stmt => SpansWithin source stmt.nodes := by
  refine keeps_bind keeps_advance fun start hstart => ?_
  refine keeps_bind ih.expression fun condition hcondition => ?_
  refine keeps_bind ih.block fun thenBlock hthen => keeps_step (keeps_accept _) fun _ => ?_
  have hspan := keeps_spanFrom hstart.within
  refine keeps_ite (keeps_bind keeps_peek fun token htoken => ?_) ?_
  · split
    · refine keeps_bind ih.conditional fun otherwise hotherwise => ?_
      refine keeps_bind hspan fun span hspan => keeps_pure ?_
      simp [Stmt.nodes, Node.spans, Stmt.span, hcondition, hthen.2, hotherwise, hspan]
    · refine keeps_bind ih.block fun otherwise hotherwise => ?_
      refine keeps_bind hspan fun span hspan => keeps_pure ?_
      simp [Stmt.nodes, Node.spans, Stmt.span, hcondition, hthen.2, hotherwise, hspan]
    · exact keeps_failAt _ htoken.within
  · refine keeps_bind hspan fun span hspan => keeps_pure ?_
    simp [Stmt.nodes, Node.spans, Stmt.span, hcondition, hthen.2, hspan]

end Phrase

theorem keepsAt (source : String) : (fuel : Nat) → KeepsAt source fuel
  | 0 => ⟨keeps_exhausted, keeps_exhausted, keeps_exhausted, fun _ _ => keeps_exhausted,
      keeps_exhausted, keeps_exhausted, keeps_exhausted⟩
  | fuel + 1 =>
      have ih := keepsAt source fuel
      ⟨keeps_expression ih, keeps_unary ih, keeps_primary ih, fun _ h => keeps_function ih h,
        keeps_block ih, keeps_statement ih, keeps_conditional ih⟩

end Parse

section Source

variable {source : String} {tokens : List Token}

theorem Cursor.standing_ofTokens (h : Token.Exact source tokens) (unnamed : Nat) :
    (Cursor.ofTokens tokens unnamed).Standing source := by
  have hfind : (tokens.find? (·.kind == .endOfInput)).isSome := by
    rw [List.find?_isSome]
    exact ⟨_, List.mem_of_getLast? h.last, rfl⟩
  obtain ⟨finish, hfinish⟩ := Option.isSome_iff_exists.mp hfind
  have hstanding := h.standing finish (List.mem_of_find?_eq_some hfinish)
  refine ⟨fun token hmem => ?_, ?_, ?_⟩
  · exact h.standing token ((List.takeWhile_sublist _).subset hmem)
  · rw [ofTokens, hfinish]
    exact hstanding
  · rw [ofTokens, hfinish]
    exact hstanding.within

/-- What is read from a source text, or the error, points into the text. -/
theorem Program.ofTokens_keeps (h : Token.Exact source tokens) (unnamed : Nat) :
    match (ofTokens tokens unnamed).result with
    | .ok program => SpansWithin source program.nodes
    | .error e => e.PointsInto source := by
  have hmany : (Parse.many (· == .endOfInput) (Parse.statement (parseFuel tokens))
      (parseFuel tokens)).Keeps source fun stmts => ∀ stmt ∈ stmts, SpansWithin source stmt.nodes :=
    Parse.keeps_many (Parse.keepsAt source _).statement _
  have hkeeps := hmany (Cursor.ofTokens tokens unnamed) (Cursor.standing_ofTokens h unnamed)
  unfold ofTokens
  simp only
  split at hkeeps <;> rename_i heq
  · simp only [heq]
    exact spansWithin_stmts hkeeps.2
  · simp only [heq]
    exact hkeeps

end Source

end Scriptlet
