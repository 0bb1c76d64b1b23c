import Scriptlet.Proofs.Parsing.Gives

/-! Whatever is spelled is parsed, if what comes next cannot go on with it. Fuel is counted
against the tokens that are left, which get fewer with every phrase. -/

namespace Scriptlet

def Cursor.left (cursor : Cursor) : Nat := cursor.rest.length

section Left

variable {α : Type} {item : α → Cursor → Cursor → Prop} {before after : Cursor}

theorem Passes.left {kind : Kind} {token : Token} (h : Passes kind token before after) :
    before.left = after.left + 1 := by
  cases h
  rfl

theorem Takes.left {symbols : List Symbol} (h : Takes symbols before after) :
    before.left = symbols.length + after.left := h.length

end Left

theorem Takes.start {symbols : List Symbol} {kinds : List Kind} {before after : Cursor}
    (h : Takes symbols before after)
    (hstart : ∃ first rest, symbols = first :: rest ∧ first.kind ∈ kinds) :
    before.peek.kind ∈ kinds ∧ after.left < before.left := by
  obtain ⟨first, rest, rfl, hfirst⟩ := hstart
  have hleft := h.left
  simp only [List.length_cons] at hleft
  exact ⟨h.peek_kind ▸ hfirst, by omega⟩

theorem TypeExpr.Spelled.start {written : TypeExpr} {before after : Cursor}
    (h : written.Spelled before after) :
    before.peek.kind ∈ Kind.exprStarts ∧ after.left < before.left := by
  refine h.takes.start ?_
  cases written with
  | named => exact ⟨_, _, rfl, by simp [Symbol.kind, Kind.exprStarts]⟩
  | function => exact ⟨_, _, rfl, by decide⟩

theorem Expr.Spelled.start {expr : Expr} {before after : Cursor} (h : expr.Spelled before after) :
    before.peek.kind ∈ Kind.exprStarts ∧ after.left < before.left :=
  h.written.2.start expr.symbols_start

theorem Block.Spelled.start {block : Block} {before after : Cursor}
    (h : block.Spelled before after) :
    before.peek.kind = .leftBrace ∧ after.left < before.left := by
  have htakes := h.written.2
  rw [Block.symbols_eq] at htakes
  have hstart : before.peek.kind ∈ [Kind.leftBrace] ∧ after.left < before.left :=
    htakes.start ⟨_, _, rfl, by decide⟩
  exact ⟨by simpa using hstart.1, hstart.2⟩

theorem Stmt.Spelled.start {stmt : Stmt} {before after : Cursor} (h : stmt.Spelled before after) :
    before.peek.kind ∈ Kind.stmtStarts ∧ after.left < before.left :=
  h.written.2.start stmt.symbols_start

namespace Parse

variable {α : Type}

/-- An item of a list between parentheses, which is parsed if there is fuel for what is left. -/
structure Item (parse : Nat → Parse α) (a : α) (before after : Cursor) : Prop where
  start : before.peek.kind ∈ Kind.exprStarts
  shorter : after.left < before.left
  gives : ∀ fuel, 8 * before.left ≤ fuel → (parse fuel).Gives before a after

theorem items_left {parse : Nat → Parse α} {items : List α} {before after : Cursor}
    (h : Listed (Item parse) items before after) : items.length + after.left ≤ before.left := by
  induction h with
  | nil => simp
  | one hitem =>
      have hshorter := hitem.shorter
      simp only [List.length_singleton]
      omega
  | more hitem hcomma _ ih =>
      have hshorter := hitem.shorter
      have hleft := hcomma.left
      simp only [List.length_cons] at ih ⊢
      omega

theorem gives_items {parse : Nat → Parse α} {full : Parse (List α)} {items : List α}
    {before after : Cursor} (h : Listed (Item parse) items before after) {fuel room : Nat}
    (hclose : after.peek.kind = .rightParen) (hfuel : 8 * before.left ≤ fuel)
    (hroom : items.length ≤ room) :
    (separatedUntil .rightParen full (parse fuel) room).Gives before items after := by
  have hitems : Listed (fun a s t => (parse fuel).Gives s a t) items before after := by
    clear hclose hroom
    induction h with
    | nil => exact .nil
    | one hitem => exact .one (hitem.gives fuel hfuel)
    | more hitem hcomma _ ih =>
        have hshorter := hitem.shorter
        have hleft := hcomma.left
        exact .more (hitem.gives fuel hfuel) hcomma (ih (by omega))
  refine gives_separatedUntil hitems (fun hne hpeek => ?_) hclose (by decide) hroom
  have hstart : before.peek.kind ∈ Kind.exprStarts := by
    cases h with
    | nil => exact absurd rfl hne
    | one hitem => exact hitem.start
    | more hitem _ _ => exact hitem.start
  rw [hpeek] at hstart
  exact absurd hstart (by decide)

mutual

theorem typeExpr_gives {written : TypeExpr} {before after : Cursor} :
    written.Spelled before after → ∀ fuel, 8 * before.left ≤ fuel →
      (typeExpr fuel).Gives before written after
  | .named h, fuel, hfuel => by
      have hleft := h.left
      obtain ⟨fuel, rfl⟩ := Nat.exists_eq_add_one.mpr (show 0 < fuel by omega)
      refine gives_bind gives_peek (gives_bind (gives_accept_none ?_) ?_)
      · rw [h.peek_kind]
        decide
      · rw [h.peek]
        exact gives_bind (gives_expectName h) gives_pure
  | .function hword hopening hparams hclosing hresult, fuel, hfuel => by
      have hleft := hword.left
      have hleft' := hopening.left
      have hleft'' := hclosing.left
      have hparams := types_items hparams
      have hcount := items_left hparams
      obtain ⟨fuel, rfl⟩ := Nat.exists_eq_add_one.mpr (show 0 < fuel by omega)
      have hresult := typeBehind_gives hresult fuel (by omega)
      rw [← hword.peek]
      refine gives_bind gives_peek (gives_bind (gives_accept hword) ?_)
      refine gives_bind (gives_expect hopening) (gives_bind (gives_items hparams
        hclosing.peek_kind (by omega) (by omega)) (gives_bind (gives_expect hclosing) ?_))
      exact gives_behind hresult (gives_bind (gives_spanFrom _) gives_pure)

theorem types_items {written : List TypeExpr} {before after : Cursor} :
    Listed TypeExpr.Spelled written before after → Listed (Item typeExpr) written before after
  | .nil => .nil
  | .one h => .one ⟨h.start.1, h.start.2, typeExpr_gives h⟩
  | .more h hcomma hrest =>
      .more ⟨h.start.1, h.start.2, typeExpr_gives h⟩ hcomma (types_items hrest)

theorem typeBehind_gives {mark : Kind} {written : Option TypeExpr} {before after : Cursor} :
    Behind mark TypeExpr.Spelled written before after → ∀ fuel, 8 * before.left ≤ fuel →
      Behind mark (fun written s t => (typeExpr fuel).Gives s written t) written before after
  | .absent h, _, _ => .absent h
  | .present hmark h, fuel, hfuel =>
      .present hmark (typeExpr_gives h fuel (by have := hmark.left; omega))

end

theorem typeExprAfter?_gives {mark : Kind} {written : Option TypeExpr} {before after : Cursor}
    (h : Behind mark TypeExpr.Spelled written before after) {fuel : Nat}
    (hfuel : 8 * before.left ≤ fuel) :
    (typeExprAfter? mark fuel).Gives before written after := by
  cases typeBehind_gives h fuel hfuel with
  | absent hpeek => exact gives_bind (gives_accept_none hpeek) gives_pure
  | present hmark hwritten => exact gives_bind (gives_accept hmark) (gives_map hwritten)

theorem param_item {param : Param} {before after : Cursor} (h : param.Spelled before after) :
    Item Parse.param param before after := by
  cases h with
  | intro hname hdeclared =>
      have hleft := hname.left
      have hshorter := (TypeExpr.behind_takes hdeclared).takes.left
      refine ⟨by rw [hname.peek_kind]; decide, by omega, fun fuel hfuel => ?_⟩
      obtain rfl := hname.peek
      refine gives_bind gives_peek (gives_bind (gives_expectName hname) ?_)
      refine gives_bind (typeExprAfter?_gives hdeclared (by omega)) ?_
      exact gives_bind (gives_spanFrom _) gives_pure

section Levels

variable {operand : Parse Expr} {fuel level : Nat} {expr : Expr} {before after : Cursor}

def opsAt (level : Nat) : List BinaryOp := BinaryOp.levels.getD (level - 1) []

def climb (operand : Parse Expr) (fuel level : Nat) : Parse Expr :=
  (BinaryOp.levels.drop (level - 1)).foldr
    (fun ops tighter => do binaryTail ops tighter fuel (← tighter)) operand

theorem climb_eq (hpos : 1 ≤ level) (hle : level ≤ 4) :
    climb operand fuel level = climb operand fuel (level + 1) >>=
      binaryTail (opsAt level) (climb operand fuel (level + 1)) fuel := by
  obtain rfl | rfl | rfl | rfl : level = 1 ∨ level = 2 ∨ level = 3 ∨ level = 4 := by omega
  all_goals rfl

theorem mem_opsAt (op : BinaryOp) : op ∈ opsAt op.level := by
  cases op <;> decide

theorem level_of_mem_opsAt (hpos : 1 ≤ level) (hle : level ≤ 4) {op : BinaryOp}
    (h : op ∈ opsAt level) : op.level = level := by
  obtain rfl | rfl | rfl | rfl : level = 1 ∨ level = 2 ∨ level = 3 ∨ level = 4 := by omega
  all_goals
    revert h
    cases op <;> decide

theorem gives_acceptBinary {ops : List BinaryOp} {op : BinaryOp} {token : Token} (hop : op ∈ ops)
    (h : Passes op.kind token before after) :
    (acceptBinary ops).Gives before (some op) after := by
  refine gives_bind gives_peek ?_
  rw [BinaryOp.ofKind?_eq_some_iff.mpr h.peek_kind]
  exact gives_ite (fun _ => gives_bind (gives_advance h) gives_pure) fun hno => absurd hop hno

theorem gives_acceptBinary_none {ops : List BinaryOp}
    (h : ∀ op ∈ BinaryOp.ofKind? before.peek.kind, op ∉ ops) :
    (acceptBinary ops).Gives before none before := by
  refine gives_bind gives_peek ?_
  cases hop : BinaryOp.ofKind? before.peek.kind with
  | none => exact gives_pure
  | some op => exact gives_ite (fun hmem => absurd hmem (h op hop)) fun _ => gives_pure

/-- An expression is parsed as one of the level. -/
def GivesAt (level : Nat) (expr : Expr) (before after : Cursor) : Prop :=
  after.peek.kind.Stops level → ∀ fuel, 8 * before.left ≤ fuel + 1 →
    (climb (unary fuel) fuel level).Gives before expr after

def TailAt (level : Nat) (expr : Expr) (before after : Cursor) : Prop :=
  after.peek.kind.Stops (level + 1) → ∀ fuel, 8 * before.left ≤ fuel + 1 →
    ∃ less, fuel + after.left ≤ less + before.left ∧ ∀ value last,
      (binaryTail (opsAt level) (climb (unary fuel) fuel (level + 1)) less expr).Gives
        after value last → (climb (unary fuel) fuel level).Gives before value last

def CallsAt (expr : Expr) (before after : Cursor) : Prop :=
  ∀ fuel, 8 * before.left ≤ fuel + 2 →
    ∃ less, fuel + after.left ≤ less + before.left ∧ ∀ value last,
      (callTail (expression fuel) less expr).Gives after value last →
        (primary fuel >>= callTail (expression fuel) fuel).Gives before value last

theorem tailAt_of_succ (hpos : 1 ≤ level) (hle : level ≤ 4)
    (h : GivesAt (level + 1) expr before after) (hshorter : after.left < before.left) :
    TailAt level expr before after := by
  intro hstop fuel hfuel
  refine ⟨fuel, by omega, fun value last htail => ?_⟩
  rw [climb_eq hpos hle]
  exact gives_bind (h hstop fuel hfuel) htail

theorem givesAt_of_tail (hpos : 1 ≤ level) (hle : level ≤ 4)
    (h : TailAt level expr before after) (hshorter : after.left < before.left) :
    GivesAt level expr before after := by
  intro hstop fuel hfuel
  obtain ⟨less, hless, htail⟩ := h (hstop.mono (Nat.le_succ _)) fuel hfuel
  obtain ⟨less, rfl⟩ := Nat.exists_eq_add_one.mpr (show 0 < less by omega)
  refine htail _ _ (gives_bind (gives_acceptBinary_none fun op hop hmem => ?_) gives_pure)
  have hlt := hstop.1 op hop
  have heq := level_of_mem_opsAt hpos hle hmem
  omega

theorem GivesAt.looser {top : Nat} (h : GivesAt top expr before after) (htop : top ≤ 5)
    (hshorter : after.left < before.left) (hpos : 1 ≤ level) (hle : level ≤ top) :
    GivesAt level expr before after := by
  obtain ⟨distance, rfl⟩ := Nat.exists_eq_add_of_le hle
  clear hle
  induction distance generalizing level with
  | zero => exact h
  | succ distance ih =>
      have hnext : GivesAt (level + 1) expr before after :=
        ih (by omega) (by rwa [Nat.add_assoc, Nat.add_comm 1]) (by omega)
      exact givesAt_of_tail hpos (by omega) (tailAt_of_succ hpos (by omega) hnext hshorter)
        hshorter

/-- All that parsing knows of an expression: how it is read at each level that it may stand on. -/
structure Climbs (expr : Expr) (before after : Cursor) : Prop where
  calls : Expr.callLevel ≤ expr.level → CallsAt expr before after
  gives : ∀ level, 1 ≤ level → level ≤ 5 → level ≤ expr.level → GivesAt level expr before after
  tails : ∀ level, 1 ≤ level → level ≤ 4 → level ≤ expr.level → TailAt level expr before after
  whole : after.peek.kind.Stops 0 → ∀ fuel, 8 * before.left ≤ fuel →
    (expression fuel).Gives before expr after

theorem climbs_of_top (top : Nat) (hpos : 1 ≤ top) (hle : top ≤ 5)
    (htop : ∀ level, level ≤ 5 → level ≤ expr.level → level ≤ top)
    (hshorter : after.left < before.left)
    (hcalls : Expr.callLevel ≤ expr.level → CallsAt expr before after)
    (hgives : GivesAt top expr before after) (htail : top ≤ 4 → TailAt top expr before after) :
    Climbs expr before after := by
  refine ⟨hcalls, fun level hlow hhigh hlevel => ?_, fun level hlow hhigh hlevel => ?_, ?_⟩
  · exact hgives.looser hle hshorter hlow (htop level hhigh hlevel)
  · have hlevel := htop level (by omega) hlevel
    rcases Nat.lt_or_eq_of_le hlevel with hlt | rfl
    · exact tailAt_of_succ hlow hhigh (hgives.looser hle hshorter (by omega) hlt) hshorter
    · exact htail hhigh
  · intro hstop fuel hfuel
    obtain ⟨fuel, rfl⟩ := Nat.exists_eq_add_one.mpr (show 0 < fuel by omega)
    have hbinary := hgives.looser hle hshorter (Nat.le_refl 1) hpos (hstop.mono (Nat.zero_le 1))
      fuel hfuel
    exact gives_bind hbinary (gives_bind (gives_accept_none (hstop.2.2 rfl)) gives_pure)

theorem climbs_of_calls (hspelled : expr.Spelled before after)
    (hlevel : Expr.callLevel ≤ expr.level) (hcalls : CallsAt expr before after) :
    Climbs expr before after := by
  have hshorter := hspelled.start.2
  refine climbs_of_top 5 (by decide) (by decide) (fun _ h _ => h) hshorter (fun _ => hcalls)
    (fun hstop fuel hfuel => ?_) (by omega)
  obtain ⟨fuel, rfl⟩ := Nat.exists_eq_add_one.mpr (show 0 < fuel by omega)
  have hunary : UnaryOp.ofKind? before.peek.kind = none := by
    obtain ⟨hgrammar, htakes⟩ := hspelled.written
    obtain ⟨first, rest, hsymbols, hfirst⟩ := hgrammar.not_unary hlevel
    rw [hsymbols] at htakes
    rwa [htakes.peek_kind]
  obtain ⟨less, hless, htail⟩ := hcalls fuel (by omega)
  obtain ⟨less, rfl⟩ := Nat.exists_eq_add_one.mpr (show 0 < less by omega)
  refine gives_bind gives_peek ?_
  rw [hunary]
  exact htail _ _ (gives_bind (gives_accept_none (hstop.2.1 (by decide))) gives_pure)

theorem climbs_of_primary (hspelled : expr.Spelled before after)
    (hlevel : Expr.callLevel ≤ expr.level)
    (h : ∀ fuel, 8 * before.left ≤ fuel + 2 → (primary fuel).Gives before expr after) :
    Climbs expr before after := by
  have hshorter := hspelled.start.2
  exact climbs_of_calls hspelled hlevel fun fuel hfuel =>
    ⟨fuel, by omega, fun value last htail => gives_bind (h fuel hfuel) htail⟩

theorem gives_literal {value : Literal} {token : Token} (h : value.Spelled token before after) :
    (primary (fuel + 1)).Gives before (.literal value ⟨token.span, none⟩) after := by
  refine gives_bind gives_peek ?_
  cases h with
  | number hpass hpayload =>
      obtain rfl := hpass.peek
      rw [hpass.peek_kind]
      exact gives_bind (gives_advance hpass) (by rw [hpayload]; exact gives_pure)
  | text hpass hpayload =>
      obtain rfl := hpass.peek
      rw [hpass.peek_kind]
      exact gives_bind (gives_advance hpass) (by rw [hpayload]; exact gives_pure)
  | yes hpass =>
      obtain rfl := hpass.peek
      rw [hpass.peek_kind]
      exact gives_bind (gives_advance hpass) gives_pure
  | no hpass =>
      obtain rfl := hpass.peek
      rw [hpass.peek_kind]
      exact gives_bind (gives_advance hpass) gives_pure

theorem climbs_variable {token : Token} (h : Passes .identifier token before after) :
    Climbs (.variable token.lexeme ⟨token.span, none⟩) before after := by
  refine climbs_of_primary (.variable h) (Nat.le_succ _) fun fuel hfuel => ?_
  have hleft := h.left
  obtain ⟨fuel, rfl⟩ := Nat.exists_eq_add_one.mpr (show 0 < fuel by omega)
  obtain rfl := h.peek
  refine gives_bind gives_peek ?_
  rw [h.peek_kind]
  exact gives_bind (gives_advance h) gives_pure

theorem stops_op (op : BinaryOp) : op.kind.Stops (op.level + 1) := by
  cases op <;> decide

end Levels

theorem statement_expression {expr : Expr} {before after : Cursor} {fuel : Nat}
    (hstart : before.peek.kind ∈ Kind.exprStarts) (hfn : before.peek.kind ≠ .fnWord)
    (h : (expression fuel).Gives before expr after) :
    (statement (fuel + 1)).Gives before (.expression expr) after := by
  refine gives_bind gives_peek ?_
  have hother : ∀ {kind : Kind}, kind ∉ Kind.exprStarts → before.peek.kind ≠ kind := by
    rintro kind hkind rfl
    exact hkind hstart
  split
  · exact absurd ‹_› (hother (by decide))
  · exact absurd ‹_› (hother (by decide))
  · exact absurd ‹_› (hother (by decide))
  · exact absurd ‹_› (hother (by decide))
  · exact absurd ‹_› hfn
  · exact absurd ‹_› (hother (by decide))
  · exact gives_bind h gives_pure

theorem gives_statements {stmts : List Stmt} {before after : Cursor} {ends : Kind → Bool}
    (h : Sequence (fun stmt s t => s.peek.kind ∈ Kind.stmtStarts ∧ t.left < s.left ∧
      ∀ fuel, 8 * s.left < fuel → (statement fuel).Gives s stmt t) stmts before after)
    (hends : ends after.peek.kind) (hstarts : ∀ kind ∈ Kind.stmtStarts, ¬ends kind)
    {fuel : Nat} (hfuel : 8 * before.left < fuel) :
    (many ends (statement fuel) fuel).Gives before stmts after := by
  have hall : Sequence (fun stmt s t => (statement fuel).Gives s stmt t ∧ ¬ends s.peek.kind)
      stmts before after ∧ stmts.length + after.left ≤ before.left := by
    clear hends
    induction h with
    | nil => exact ⟨.nil, by simp⟩
    | cons hitem _ ih =>
        obtain ⟨hstart, hshorter, hgives⟩ := hitem
        obtain ⟨hrest, hcount⟩ := ih (by omega)
        refine ⟨.cons ⟨hgives fuel hfuel, hstarts _ hstart⟩ hrest, ?_⟩
        simp only [List.length_cons]
        omega
  exact gives_many hall.1 hends fuel (by omega)

structure Stands (stmt : Stmt) (before after : Cursor) : Prop where
  statement : ∀ fuel, 8 * before.left < fuel → (statement fuel).Gives before stmt after
  branch : stmt.isBranch →
    (before.peek.kind = .ifWord ∧ ∀ fuel, 8 * before.left ≤ fuel →
      (conditional fuel).Gives before stmt after) ∨
    ∃ inner, stmt = .block inner ∧ before.peek.kind = .leftBrace ∧
      ∀ fuel, 8 * before.left ≤ fuel → (block fuel).Gives before inner after

theorem conditional_gives {word : Token} {condition : Expr} {thenBlock : Block}
    {otherwise : Option Stmt} {before first second third after : Cursor}
    (hword : Passes .ifWord word before first) (hcondition : condition.Spelled first second)
    (hclimbs : Climbs condition first second) (hthen : thenBlock.Spelled second third)
    (hblock : ∀ fuel, 8 * second.left ≤ fuel → (block fuel).Gives second thenBlock third)
    (hotherwise : Behind .elseWord Stands otherwise third after)
    (branch : ∀ stmt ∈ otherwise, stmt.isBranch) :
    ∀ fuel, 8 * before.left ≤ fuel → (conditional fuel).Gives before
      (.conditional condition thenBlock otherwise (word.span.upTo after.passed)) after := by
  intro fuel hfuel
  have hleft := hword.left
  obtain ⟨_, hshorter⟩ := hcondition.start
  obtain ⟨hbrace, hshorter'⟩ := hthen.start
  obtain ⟨fuel, rfl⟩ := Nat.exists_eq_add_one.mpr (show 0 < fuel by omega)
  have hstop : second.peek.kind.Stops 0 := by
    rw [hbrace]
    decide
  refine gives_bind (gives_advance hword) (gives_bind (hclimbs.whole hstop fuel (by omega)) ?_)
  refine gives_bind (hblock fuel (by omega)) ?_
  cases hotherwise with
  | absent hpeek =>
      exact gives_bind (gives_accept_none hpeek) (gives_bind (gives_spanFrom _) gives_pure)
  | present helse hstands =>
      have hleft' := helse.left
      refine gives_bind (gives_accept helse) (gives_bind gives_peek ?_)
      rcases hstands.branch (branch _ rfl) with ⟨hkind, hgives⟩ | ⟨inner, rfl, hkind, hgives⟩
      · rw [hkind]
        exact gives_bind (hgives fuel (by omega)) (gives_bind (gives_spanFrom _) gives_pure)
      · rw [hkind]
        exact gives_bind (hgives fuel (by omega)) (gives_bind (gives_spanFrom _) gives_pure)

mutual

theorem climbs {expr : Expr} {before after : Cursor} :
    expr.Spelled before after → Climbs expr before after
  | .literal h => by
      refine climbs_of_primary (.literal h) (Nat.le_succ _) fun fuel hfuel => ?_
      have hleft := (Expr.Spelled.literal h).start.2
      obtain ⟨fuel, rfl⟩ := Nat.exists_eq_add_one.mpr (show 0 < fuel by omega)
      exact gives_literal h
  | .variable h => climbs_variable h
  | .assign hname hequal hvalue => by
      have hzero : ∀ level, 1 ≤ level → ¬level ≤ 0 := by omega
      refine ⟨fun h => absurd h (Nat.not_succ_le_zero _), fun level hlow _ h => absurd h
        (hzero level hlow), fun level hlow _ h => absurd h (hzero level hlow),
          fun hstop fuel hfuel => ?_⟩
      have hleft := hname.left
      have hleft' := hequal.left
      have hequalStop : Kind.Stops 1 .equal := by decide
      have htarget := (climbs_variable hname).gives 1 (by decide) (by decide)
        (show 1 ≤ 7 by decide) (hequal.peek_kind ▸ hequalStop)
      have hvalue := (climbs hvalue).whole hstop
      obtain ⟨fuel, rfl⟩ := Nat.exists_eq_add_one.mpr (show 0 < fuel by omega)
      refine gives_bind (htarget fuel hfuel) (gives_bind (gives_accept hequal) ?_)
      exact gives_bind (hvalue fuel (by omega)) gives_pure
  | .group hopening hinner hclosing => by
      refine climbs_of_primary (.group hopening hinner hclosing) (Nat.le_succ _)
        fun fuel hfuel => ?_
      have hleft := hopening.left
      have hstop : Kind.Stops 0 .rightParen := by decide
      have hwhole := (climbs hinner).whole (hclosing.peek_kind ▸ hstop)
      obtain ⟨fuel, rfl⟩ := Nat.exists_eq_add_one.mpr (show 0 < fuel by omega)
      obtain rfl := hopening.peek
      refine gives_bind gives_peek ?_
      rw [hopening.peek_kind]
      refine gives_bind (gives_advance hopening) (gives_bind (hwhole fuel (by omega)) ?_)
      exact gives_bind (gives_expect hclosing) (gives_bind (gives_spanFrom _) gives_pure)
  | .unary hop hoperand level => by
      have hunary := Expr.Spelled.unary hop hoperand level
      have hleft := hop.left
      have hoperand := (climbs hoperand).gives 5 (by decide) (by decide) level
      refine climbs_of_top 5 (by decide) (by decide) (fun _ h _ => h) hunary.start.2
        (fun h => absurd h (Nat.not_succ_le_self _)) (fun hstop fuel hfuel => ?_)
        (fun h => absurd h (by decide))
      obtain ⟨fuel, rfl⟩ := Nat.exists_eq_add_one.mpr (show 0 < fuel by omega)
      obtain rfl := hop.peek
      refine gives_bind gives_peek ?_
      rw [UnaryOp.ofKind?_eq_some_iff.mpr hop.peek_kind]
      exact gives_bind (gives_advance hop) (gives_bind (hoperand hstop fuel (by omega)) gives_pure)
  | @Expr.Spelled.binary op _ left right _ first second after hleft hop hright leftLevel
      rightLevel => by
      have hbinary := Expr.Spelled.binary hleft hop hright leftLevel rightLevel
      have hpos := op.level_pos
      have hle := op.level_le
      have hshorter := hleft.start.2
      have hshorter' := hop.left
      have hshorter'' := hright.start.2
      have hfirst := (climbs hleft).tails op.level hpos hle leftLevel (hop.peek_kind ▸ stops_op op)
      have hsecond := (climbs hright).gives (op.level + 1) (by omega) (by omega) rightLevel
      have htail : TailAt op.level (.binary op left right ⟨left.span.upTo right.span, none⟩)
          before after := by
        intro hstop fuel hfuel
        obtain ⟨less, hless, hgives⟩ := hfirst fuel hfuel
        obtain ⟨less, rfl⟩ := Nat.exists_eq_add_one.mpr (show 0 < less by omega)
        refine ⟨less, by omega, fun value last hnext => hgives value last ?_⟩
        refine gives_bind (gives_acceptBinary (mem_opsAt op) hop) ?_
        exact gives_bind (hsecond hstop fuel (by omega)) hnext
      exact climbs_of_top op.level hpos (by omega) (fun _ _ h => h) hbinary.start.2
        (fun h => absurd (Nat.le_trans h hle) (by decide))
        (givesAt_of_tail hpos hle htail hbinary.start.2) fun _ => htail
  | .call hcallee hopening hargs hclosing level arity => by
      refine climbs_of_calls (.call hcallee hopening hargs hclosing level arity) (Nat.le_refl _)
        fun fuel hfuel => ?_
      have hstop : Kind.Stops 0 .rightParen := by decide
      have hshorter := hcallee.start.2
      have hleft := hopening.left
      have hleft' := hclosing.left
      have hargs := args_items hargs (.inr (hclosing.peek_kind ▸ hstop))
      have hcount := items_left hargs
      obtain ⟨less, hless, hgives⟩ := (climbs hcallee).calls level fuel hfuel
      obtain ⟨less, rfl⟩ := Nat.exists_eq_add_one.mpr (show 0 < less by omega)
      refine ⟨less, by omega, fun value last hnext => hgives value last ?_⟩
      refine gives_bind (gives_accept hopening) (gives_bind (gives_items hargs
        hclosing.peek_kind (by omega) arity) (gives_bind (gives_expect hclosing) ?_))
      exact gives_bind (gives_spanFrom _) hnext
  | .function hword hdecl => by
      refine climbs_of_primary (.function hword hdecl) (Nat.le_succ _) fun fuel hfuel => ?_
      have hleft := hword.left
      have hfunction := function_gives hdecl
      obtain ⟨fuel, rfl⟩ := Nat.exists_eq_add_one.mpr (show 0 < fuel by omega)
      obtain rfl := hword.peek
      refine gives_bind gives_peek ?_
      rw [hword.peek_kind]
      exact gives_bind (gives_advance hword) (gives_bind (hfunction fuel (by omega)) gives_pure)

theorem args_items {args : List Expr} {before after : Cursor} :
    Listed Expr.Spelled args before after →
      (args = [] ∨ after.peek.kind.Stops 0) → Listed (Item expression) args before after
  | .nil, _ => .nil
  | .one h, hstop => .one ⟨h.start.1, h.start.2, (climbs h).whole (by simpa using hstop)⟩
  | .more h hcomma hrest, hstop => by
      have hcommaStop : Kind.Stops 0 .comma := by decide
      exact .more ⟨h.start.1, h.start.2, (climbs h).whole (hcomma.peek_kind ▸ hcommaStop)⟩
        hcomma (args_items hrest (by simpa using hstop))

theorem init_gives {init : Option Expr} {before after : Cursor} :
    Behind .equal Expr.Spelled init before after → (init.isSome → after.peek.kind.Stops 0) →
      ∀ fuel, 8 * before.left ≤ fuel →
        Behind .equal (fun expr s t => (expression fuel).Gives s expr t) init before after
  | .absent h, _, _, _ => .absent h
  | .present hmark h, hstop, fuel, hfuel =>
      .present hmark ((climbs h).whole (hstop rfl) fuel (by have := hmark.left; omega))

theorem function_gives {decl : FnDecl} {start : Span} {before after : Cursor} :
    decl.Spelled start before after → ∀ fuel, 8 * before.left ≤ fuel →
      (function fuel start).Gives before decl after
  | .intro hname hopening hparams hclosing hresult hbody arity, fuel, hfuel => by
      have hnext := hopening.peek_kind
      obtain rfl := hname.anonymous_eq (by rw [hnext]; decide)
      have hleft := hname.takes.left
      have hleft' := hopening.left
      have hleft'' := hclosing.left
      have hparams := hparams.imp param_item
      have hcount := items_left hparams
      have hshorter := (TypeExpr.behind_takes hresult).takes.left
      have hbody := block_gives hbody
      obtain ⟨fuel, rfl⟩ := Nat.exists_eq_add_one.mpr (show 0 < fuel by omega)
      refine gives_bind gives_peek (gives_name hname (by rw [hnext]; decide) ?_)
      refine gives_bind (gives_expect hopening) (gives_bind (gives_items hparams
        hclosing.peek_kind (by omega) arity) (gives_bind (gives_expect hclosing) ?_))
      refine gives_bind (typeExprAfter?_gives hresult (by omega)) ?_
      exact gives_bind (hbody fuel (by omega)) (gives_bind (gives_spanFrom _) gives_pure)

theorem block_gives {block : Block} {before after : Cursor} :
    block.Spelled before after → ∀ fuel, 8 * before.left ≤ fuel →
      (Parse.block fuel).Gives before block after
  | .intro hopening hstatements hclosing, fuel, hfuel => by
      have hleft := hopening.left
      obtain ⟨fuel, rfl⟩ := Nat.exists_eq_add_one.mpr (show 0 < fuel by omega)
      obtain rfl := hopening.peek
      have hmany : (many (fun kind => kind == .rightBrace || kind == .endOfInput)
          (statement fuel) fuel).Gives _ _ _ :=
        gives_statements (statements_stand hstatements) (by rw [hclosing.peek_kind]; rfl)
          (by decide) (by omega)
      refine gives_bind gives_peek (gives_bind (gives_expect hopening) (gives_bind hmany ?_))
      exact gives_bind (gives_expect hclosing) (gives_bind (gives_spanFrom _) gives_pure)

theorem stands {stmt : Stmt} {before after : Cursor} :
    stmt.Spelled before after → Stands stmt before after
  | .expression hexpr start stop => by
      refine ⟨fun fuel hfuel => ?_, by simp [Stmt.isBranch]⟩
      obtain ⟨fuel, rfl⟩ := Nat.exists_eq_add_one.mpr (show 0 < fuel by omega)
      have hwhole := (climbs hexpr).whole stop fuel (by omega)
      exact statement_expression hexpr.start.1 start hwhole
  | .binding hword hname hdeclared hinit stop => by
      refine ⟨fun fuel hfuel => ?_, by simp [Stmt.isBranch]⟩
      have hleft := hword.left
      have hleft' := hname.left
      have hshorter := (TypeExpr.behind_takes hdeclared).takes.left
      obtain ⟨fuel, rfl⟩ := Nat.exists_eq_add_one.mpr (show 0 < fuel by omega)
      have hinit := init_gives hinit stop fuel (by omega)
      obtain rfl := hword.peek
      refine gives_bind gives_peek ?_
      rw [hword.peek_kind]
      refine gives_bind (gives_advance hword) (gives_bind (gives_expectName hname) ?_)
      refine gives_bind (typeExprAfter?_gives hdeclared (by omega)) ?_
      exact gives_behind hinit (gives_bind (gives_spanFrom _) gives_pure)
  | .block hblock => by
      have hgives := block_gives hblock
      have hkind := hblock.start.1
      refine ⟨fun fuel hfuel => ?_, fun _ => .inr ⟨_, rfl, hkind, hgives⟩⟩
      obtain ⟨fuel, rfl⟩ := Nat.exists_eq_add_one.mpr (show 0 < fuel by omega)
      refine gives_bind gives_peek ?_
      rw [hkind]
      exact gives_bind (hgives fuel (by omega)) gives_pure
  | .conditional hword hcondition hthen hotherwise branch => by
      have hgives := conditional_gives hword hcondition (climbs hcondition) hthen
        (block_gives hthen) (otherwise_stands hotherwise) branch
      refine ⟨fun fuel hfuel => ?_, fun _ => .inl ⟨hword.peek_kind, hgives⟩⟩
      obtain ⟨fuel, rfl⟩ := Nat.exists_eq_add_one.mpr (show 0 < fuel by omega)
      refine gives_bind gives_peek ?_
      rw [hword.peek_kind]
      exact hgives fuel (by omega)
  | .loop hword hcondition hbody => by
      refine ⟨fun fuel hfuel => ?_, by simp [Stmt.isBranch]⟩
      have hleft := hword.left
      obtain ⟨_, hshorter⟩ := hcondition.start
      obtain ⟨hbrace, hshorter'⟩ := hbody.start
      have hstop : Kind.Stops 0 .leftBrace := by decide
      have hcondition := (climbs hcondition).whole (hbrace ▸ hstop)
      have hbody := block_gives hbody
      obtain ⟨fuel, rfl⟩ := Nat.exists_eq_add_one.mpr (show 0 < fuel by omega)
      obtain rfl := hword.peek
      refine gives_bind gives_peek ?_
      rw [hword.peek_kind]
      refine gives_bind (gives_advance hword) (gives_bind (hcondition fuel (by omega)) ?_)
      exact gives_bind (hbody fuel (by omega)) (gives_bind (gives_spanFrom _) gives_pure)
  | .function hword hdecl => by
      refine ⟨fun fuel hfuel => ?_, by simp [Stmt.isBranch]⟩
      have hleft := hword.left
      have hfunction := function_gives hdecl
      obtain ⟨fuel, rfl⟩ := Nat.exists_eq_add_one.mpr (show 0 < fuel by omega)
      obtain rfl := hword.peek
      refine gives_bind gives_peek ?_
      rw [hword.peek_kind]
      exact gives_bind (gives_advance hword) (gives_bind (hfunction fuel (by omega)) gives_pure)
  | .finish hword stop => by
      refine ⟨fun fuel hfuel => ?_, by simp [Stmt.isBranch]⟩
      have hleft := hword.left
      obtain ⟨fuel, rfl⟩ := Nat.exists_eq_add_one.mpr (show 0 < fuel by omega)
      obtain rfl := hword.peek
      refine gives_bind gives_peek ?_
      rw [hword.peek_kind]
      refine gives_bind (gives_advance hword) (gives_bind gives_peek ?_)
      refine gives_ite (fun _ => ?_) fun hno => absurd stop hno
      exact gives_bind gives_pure (gives_bind (gives_spanFrom _) gives_pure)
  | .ret hword hvalue stop => by
      refine ⟨fun fuel hfuel => ?_, by simp [Stmt.isBranch]⟩
      have hleft := hword.left
      have hstart := hvalue.start.1
      have hvalue := (climbs hvalue).whole stop
      obtain ⟨fuel, rfl⟩ := Nat.exists_eq_add_one.mpr (show 0 < fuel by omega)
      obtain rfl := hword.peek
      refine gives_bind gives_peek ?_
      rw [hword.peek_kind]
      refine gives_bind (gives_advance hword) (gives_bind gives_peek ?_)
      refine gives_ite (fun hend => ?_) fun _ => ?_
      · rcases hend with hend | hend
        · exact absurd (hend ▸ hstart) (by decide)
        · exact absurd (hend ▸ hstart) (by decide)
      · exact gives_bind (gives_map (hvalue fuel (by omega)))
          (gives_bind (gives_spanFrom _) gives_pure)

theorem otherwise_stands {stmt : Option Stmt} {before after : Cursor} :
    Behind .elseWord Stmt.Spelled stmt before after → Behind .elseWord Stands stmt before after
  | .absent h => .absent h
  | .present hmark h => .present hmark (stands h)

theorem statements_stand {stmts : List Stmt} {before after : Cursor} :
    Sequence Stmt.Spelled stmts before after →
      Sequence (fun stmt s t => s.peek.kind ∈ Kind.stmtStarts ∧ t.left < s.left ∧
        ∀ fuel, 8 * s.left < fuel → (statement fuel).Gives s stmt t) stmts before after
  | .nil => .nil
  | .cons hstmt hrest =>
      .cons ⟨hstmt.start.1, hstmt.start.2, (stands hstmt).statement⟩ (statements_stand hrest)

end

end Parse

end Scriptlet
