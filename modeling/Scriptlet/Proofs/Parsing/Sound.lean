import Scriptlet.Proofs.Parsing.Finds

/-! What is parsed is spelled by the tokens that are passed, and what comes next could not have
been passed, too. -/

namespace Scriptlet

namespace Parse

theorem typeExpr_spelled : (fuel : Nat) → (place : Cursor) →
    (typeExpr fuel).Finds place fun written after => written.Spelled place after
  | 0, _ => finds_exhausted
  | fuel + 1, place => by
      refine finds_bind (finds_peek (finds_bind ?_))
      refine finds_accept (by decide) (fun word first hword => ?_) fun _ => ?_
      · refine finds_bind (finds_expect (by decide) fun opening second hopening => finds_bind ?_)
        refine (finds_separatedUntil (typeExpr_spelled fuel)
          (fun _ _ => finds_exhausted) fuel).mono ?_
        rintro params third ⟨_, hparams⟩
        refine finds_bind (finds_expect (by decide) fun closing fourth hclosing => ?_)
        refine finds_behind (by decide) (typeExpr_spelled fuel) fun result after hresult => ?_
        refine finds_bind (finds_spanFrom (finds_pure ?_))
        rw [hword.peek]
        exact .function hword hopening hparams hclosing hresult
      · refine finds_bind (finds_expectName fun token after hname => finds_pure ?_)
        rw [hname.peek]
        exact .named hname

theorem typeExprAfter?_spelled {mark : Kind} (hmark : mark ≠ .endOfInput) (fuel : Nat)
    (place : Cursor) : (typeExprAfter? mark fuel).Finds place fun declared after =>
      Behind mark TypeExpr.Spelled declared place after := by
  refine finds_bind (finds_accept hmark (fun token middle hpass => ?_) fun hpeek => ?_)
  · exact finds_map ((typeExpr_spelled fuel middle).mono fun _ _ h => .present hpass h)
  · exact finds_pure (.absent hpeek)

theorem param_spelled (fuel : Nat) (place : Cursor) :
    (param fuel).Finds place fun param after => param.Spelled place after := by
  refine finds_bind (finds_peek (finds_bind (finds_expectName fun name middle hname => ?_)))
  refine finds_bind ((typeExprAfter?_spelled (by decide) fuel middle).mono ?_)
  intro declared after hdeclared
  refine finds_bind (finds_spanFrom (finds_pure ?_))
  rw [hname.peek]
  exact .intro hname hdeclared

section Operators

variable {place before : Cursor} {operand : Parse Expr} {level : Nat} {ops : List BinaryOp}

def Complete (level : Nat) (before : Cursor) (expr : Expr) (after : Cursor) : Prop :=
  expr.Spelled before after ∧ level ≤ expr.level ∧ after.peek.kind.Stops level

theorem finds_acceptBinary {ok : Option BinaryOp → Cursor → Prop}
    (hsome : ∀ op token after, op ∈ ops → Passes op.kind token place after → ok (some op) after)
    (hnone : (∀ op ∈ BinaryOp.ofKind? place.peek.kind, op ∉ ops) → ok none place) :
    (acceptBinary ops).Finds place ok := by
  refine finds_bind (finds_peek ?_)
  split
  · rename_i op hop
    have hkind := BinaryOp.ofKind?_eq_some_iff.mp hop
    refine finds_ite (fun hmem => ?_) fun hmem => ?_
    · refine finds_bind (finds_advance ?_ hkind fun after hpass => finds_pure ?_)
      · cases op <;> decide
      · exact hsome op _ after hmem hpass
    · exact finds_pure (hnone (by simpa [hop] using hmem))
  · rename_i hop
    exact finds_pure (hnone (by simp [hop]))

theorem binaryTail_complete (hpos : 0 < level) (hcall : level < Expr.callLevel)
    (hops : ∀ op : BinaryOp, op ∈ ops ↔ op.level = level)
    (hoperand : ∀ place, operand.Finds place (Complete (level + 1) place)) :
    (fuel : Nat) → (left : Expr) → (place : Cursor) → left.Spelled before place →
    level ≤ left.level → place.peek.kind.Stops (level + 1) →
    (binaryTail ops operand fuel left).Finds place (Complete level before)
  | 0, _, _, _, _, _ => finds_exhausted
  | fuel + 1, left, place, hleft, hlevel, hstop => by
      refine finds_bind (finds_acceptBinary (fun op token middle hop hpass => ?_) fun hnone => ?_)
      · refine finds_bind ((hoperand middle).mono ?_)
        rintro right after ⟨hright, hrightLevel, hstop⟩
        have hop := (hops op).mp hop
        have hbinary := Expr.Spelled.binary hleft hpass hright (hop ▸ hlevel) (hop ▸ hrightLevel)
        exact binaryTail_complete hpos hcall hops hoperand fuel _ after hbinary
          (Nat.le_of_eq hop.symm)
          hstop
      · refine finds_pure ⟨hleft, hlevel, fun op hop => ?_, fun _ => hstop.2.1 hcall, by omega⟩
        have hlt := hstop.1 op hop
        have hne := mt (hops op).mpr (hnone op hop)
        omega

theorem levels_complete (hoperand : ∀ place, operand.Finds place (Complete Expr.unaryLevel place))
    (fuel : Nat) (place : Cursor) : (binary operand fuel).Finds place (Complete 1 place) := by
  have hlevel : ∀ (level : Nat) (ops : List BinaryOp) (tighter : Parse Expr), 0 < level →
      level < Expr.callLevel → (∀ op : BinaryOp, op ∈ ops ↔ op.level = level) →
      (∀ place, tighter.Finds place (Complete (level + 1) place)) → ∀ place,
      (tighter >>= binaryTail ops tighter fuel).Finds place (Complete level place) := by
    intro level ops tighter hpos hcall hops htighter place
    refine finds_bind ((htighter place).mono ?_)
    rintro left middle ⟨hleft, hlevel, hstop⟩
    exact binaryTail_complete hpos hcall hops htighter fuel left middle hleft
      (Nat.le_of_succ_le hlevel) hstop
  refine hlevel 1 _ _ (by decide) (by decide) ?_ (hlevel 2 _ _ (by decide) (by decide) ?_
    (hlevel 3 _ _ (by decide) (by decide) ?_ (hlevel 4 _ _ (by decide) (by decide) ?_
      hoperand))) place
  all_goals
    intro op
    cases op <;> decide

theorem stops_unary {kind : Kind} (h : kind ≠ .leftParen) : kind.Stops Expr.unaryLevel :=
  ⟨fun op _ => Nat.lt_succ_of_le op.level_le, fun _ => h, nofun⟩

theorem callTail_complete {argument : Parse Expr}
    (hargument : ∀ place, argument.Finds place (Complete 0 place)) :
    (fuel : Nat) → (callee : Expr) → (place : Cursor) → callee.Spelled before place →
    Expr.callLevel ≤ callee.level →
    (callTail argument fuel callee).Finds place (Complete Expr.unaryLevel before)
  | 0, _, _, _, _ => finds_exhausted
  | fuel + 1, callee, place, hcallee, hlevel => by
      refine finds_bind (finds_accept (by decide) (fun opening second hopening => ?_) fun hno => ?_)
      · have hspelled : ∀ place, argument.Finds place fun e after => e.Spelled place after :=
          fun place => (hargument place).mono fun _ _ h => h.1
        refine finds_bind ((finds_separatedUntil hspelled
          (fun _ _ => finds_bind (finds_peek (finds_failAt _ _))) maxArity).mono ?_)
        rintro args third ⟨hcount, hargs⟩
        refine finds_bind (finds_expect (by decide) fun closing after hclosing => ?_)
        refine finds_bind (finds_spanFrom ?_)
        exact callTail_complete hargument fuel _ after
          (.call hcallee hopening hargs hclosing hlevel hcount) (Nat.le_refl _)
      · exact finds_pure ⟨hcallee, Nat.le_of_succ_le hlevel, stops_unary hno⟩

end Operators

structure SpelledAt (fuel : Nat) : Prop where
  expression : ∀ place, (expression fuel).Finds place (Complete 0 place)
  unary : ∀ place, (unary fuel).Finds place (Complete Expr.unaryLevel place)
  primary : ∀ place, (primary fuel).Finds place fun expr after =>
    expr.Spelled place after ∧ Expr.callLevel ≤ expr.level
  function : ∀ start place, (function fuel start).Finds place fun decl after =>
    decl.Spelled start place after
  block : ∀ place, (block fuel).Finds place fun block after => block.Spelled place after
  statement : ∀ place, (statement fuel).Finds place fun stmt after => stmt.Spelled place after
  conditional : ∀ place, place.peek.kind = .ifWord →
    (conditional fuel).Finds place fun stmt after => stmt.Spelled place after ∧ stmt.isBranch

section Steps

variable {fuel : Nat}

theorem expression_complete (ih : SpelledAt fuel) (place : Cursor) :
    (expression (fuel + 1)).Finds place (Complete 0 place) := by
  refine finds_bind ((levels_complete ih.unary fuel place).mono ?_)
  rintro target first ⟨htarget, hlevel, hstop⟩
  refine finds_bind (finds_accept (by decide) (fun equal second hequal => ?_) fun hno => ?_)
  · refine finds_bind ((ih.expression second).mono ?_)
    rintro value after ⟨hvalue, _, hstop⟩
    simp only
    split
    · cases htarget
      rename_i hname
      exact finds_pure ⟨.assign hname hequal hvalue, Nat.zero_le _, hstop⟩
    · exact finds_failAt _ _
  · refine finds_pure ⟨htarget, Nat.zero_le _, fun op hop => ?_, fun _ => hstop.2.1 (by decide),
      fun _ => hno⟩
    exact absurd (hstop.1 op hop) (Nat.not_lt.mpr op.level_pos)

theorem unary_complete (ih : SpelledAt fuel) (place : Cursor) :
    (unary (fuel + 1)).Finds place (Complete Expr.unaryLevel place) := by
  refine finds_bind (finds_peek ?_)
  split
  · rename_i op hop
    have hkind := UnaryOp.ofKind?_eq_some_iff.mp hop
    refine finds_bind (finds_advance ?_ hkind fun middle hpass => ?_)
    · cases op <;> decide
    · refine finds_bind ((ih.unary middle).mono ?_)
      rintro operand after ⟨hoperand, hlevel, hstop⟩
      exact finds_pure ⟨.unary hpass hoperand hlevel, Nat.le_refl _, hstop⟩
  · refine finds_bind ((ih.primary place).mono ?_)
    rintro callee middle ⟨hcallee, hlevel⟩
    exact callTail_complete ih.expression fuel callee middle hcallee hlevel

theorem primary_spelled (ih : SpelledAt fuel) (place : Cursor) :
    (primary (fuel + 1)).Finds place fun expr after =>
      expr.Spelled place after ∧ Expr.callLevel ≤ expr.level := by
  refine finds_bind (finds_peek ?_)
  split
  · rename_i hkind
    refine finds_bind (finds_advance (by decide) hkind fun after hpass => ?_)
    split
    · rename_i value hpayload
      exact finds_pure ⟨.literal (.number hpass hpayload), Nat.le_succ _⟩
    · exact finds_failAt _ _
  · rename_i hkind
    refine finds_bind (finds_advance (by decide) hkind fun after hpass => ?_)
    split
    · rename_i value hpayload
      exact finds_pure ⟨.literal (.text hpass hpayload), Nat.le_succ _⟩
    · exact finds_failAt _ _
  · rename_i hkind
    refine finds_bind (finds_advance (by decide) hkind fun after hpass => finds_pure ?_)
    exact ⟨.literal (.yes hpass), Nat.le_succ _⟩
  · rename_i hkind
    refine finds_bind (finds_advance (by decide) hkind fun after hpass => finds_pure ?_)
    exact ⟨.literal (.no hpass), Nat.le_succ _⟩
  · rename_i hkind
    refine finds_bind (finds_advance (by decide) hkind fun after hpass => finds_pure ?_)
    exact ⟨.variable hpass, Nat.le_succ _⟩
  · rename_i hkind
    refine finds_bind (finds_advance (by decide) hkind fun first hpass => ?_)
    refine finds_bind ((ih.expression first).mono ?_)
    rintro inner second ⟨hinner, _⟩
    refine finds_bind (finds_expect (by decide) fun closing after hclosing => ?_)
    refine finds_bind (finds_spanFrom (finds_pure ?_))
    exact ⟨.group hpass hinner hclosing, Nat.le_succ _⟩
  · rename_i hkind
    refine finds_bind (finds_advance (by decide) hkind fun first hpass => ?_)
    refine finds_bind ((ih.function _ first).mono fun decl after hdecl => finds_pure ?_)
    exact ⟨.function hpass hdecl, Nat.le_succ _⟩
  · exact finds_failAt _ _

theorem function_spelled (ih : SpelledAt fuel) (start : Span) (place : Cursor) :
    (function (fuel + 1) start).Finds place fun decl after => decl.Spelled start place after := by
  refine finds_bind (finds_peek ?_)
  refine finds_name fun name first hname => ?_
  refine finds_bind (finds_expect (by decide) fun opening second hopening => ?_)
  refine finds_bind ((finds_separatedUntil (param_spelled fuel)
    (fun _ _ => finds_bind (finds_peek (finds_failAt _ _))) maxArity).mono ?_)
  rintro params third ⟨hcount, hparams⟩
  refine finds_bind (finds_expect (by decide) fun closing fourth hclosing => ?_)
  refine finds_bind ((typeExprAfter?_spelled (by decide) fuel fourth).mono ?_)
  intro result fifth hresult
  refine finds_bind ((ih.block fifth).mono fun body after hbody => ?_)
  refine finds_bind (finds_spanFrom (finds_pure ?_))
  exact .intro hname hopening hparams hclosing hresult hbody hcount

theorem block_spelled (ih : SpelledAt fuel) (place : Cursor) :
    (block (fuel + 1)).Finds place fun block after => block.Spelled place after := by
  refine finds_bind (finds_peek ?_)
  refine finds_bind (finds_expect (by decide) fun opening first hopening => ?_)
  refine finds_bind ((finds_many ih.statement fuel first).mono ?_)
  rintro statements second ⟨hstatements, _⟩
  refine finds_bind (finds_expect (by decide) fun closing after hclosing => ?_)
  refine finds_bind (finds_spanFrom (finds_pure ?_))
  rw [hopening.peek]
  exact .intro hopening hstatements hclosing

theorem statement_spelled (ih : SpelledAt fuel) (place : Cursor) :
    (statement (fuel + 1)).Finds place fun stmt after => stmt.Spelled place after := by
  refine finds_bind (finds_peek ?_)
  split
  · rename_i hkind
    refine finds_bind (finds_advance (by decide) hkind fun first hword => ?_)
    refine finds_bind (finds_expectName fun name second hname => ?_)
    refine finds_bind ((typeExprAfter?_spelled (by decide) fuel second).mono ?_)
    intro declared third hdeclared
    refine finds_behind (by decide) ih.expression fun init after hinit => ?_
    refine finds_bind (finds_spanFrom (finds_pure ?_))
    refine .binding hword hname hdeclared (hinit.imp fun h => h.1) ?_
    cases hinit with
    | absent => simp
    | present _ h => exact fun _ => h.2.2
  · exact finds_bind ((ih.block place).mono fun block after hblock => finds_pure (.block hblock))
  · rename_i hkind
    exact (ih.conditional place hkind).mono fun stmt after h => h.1
  · rename_i hkind
    refine finds_bind (finds_advance (by decide) hkind fun first hword => ?_)
    refine finds_bind ((ih.expression first).mono ?_)
    rintro condition second ⟨hcondition, _⟩
    refine finds_bind ((ih.block second).mono fun body after hbody => ?_)
    exact finds_bind (finds_spanFrom (finds_pure (.loop hword hcondition hbody)))
  · rename_i hkind
    refine finds_bind (finds_advance (by decide) hkind fun first hword => ?_)
    refine finds_bind ((ih.function _ first).mono fun decl after hdecl => finds_pure ?_)
    exact .function hword hdecl
  · rename_i hkind
    refine finds_bind (finds_advance (by decide) hkind fun first hword => ?_)
    refine finds_bind (finds_peek (finds_ite (fun hnext => ?_) fun _ => ?_))
    · refine finds_bind (finds_pure (finds_bind (finds_spanFrom (finds_pure ?_))))
      exact .finish hword hnext
    · refine finds_bind (finds_map ((ih.expression first).mono ?_))
      rintro value after ⟨hvalue, _, hstop⟩
      exact finds_bind (finds_spanFrom (finds_pure (.ret hword hvalue hstop)))
  · rename_i hlet hbrace hif hwhile hfn hreturn
    refine finds_bind ((ih.expression place).mono ?_)
    rintro expr after ⟨hexpr, _, hstop⟩
    exact finds_pure (.expression hexpr hfn hstop)

theorem conditional_spelled (ih : SpelledAt fuel) (place : Cursor)
    (hkind : place.peek.kind = .ifWord) :
    (conditional (fuel + 1)).Finds place fun stmt after =>
      stmt.Spelled place after ∧ stmt.isBranch := by
  refine finds_bind (finds_advance (by decide) hkind fun first hword => ?_)
  refine finds_bind ((ih.expression first).mono ?_)
  rintro condition second ⟨hcondition, _⟩
  refine finds_bind ((ih.block second).mono fun thenBlock third hthen => ?_)
  refine finds_bind (finds_accept (by decide) (fun token fourth helse => ?_) fun hno => ?_)
  · refine finds_bind (finds_peek ?_)
    split
    · rename_i hkind
      refine finds_bind ((ih.conditional fourth hkind).mono ?_)
      rintro otherwise after ⟨hotherwise, hbranch⟩
      refine finds_bind (finds_spanFrom (finds_pure ⟨?_, rfl⟩))
      exact .conditional hword hcondition hthen (.present helse hotherwise) (by simpa using hbranch)
    · refine finds_bind ((ih.block fourth).mono fun otherwise after hotherwise => ?_)
      refine finds_bind (finds_spanFrom (finds_pure ⟨?_, rfl⟩))
      exact .conditional hword hcondition hthen (.present helse (.block hotherwise))
        (by simp [Stmt.isBranch])
    · exact finds_failAt _ _
  · refine finds_bind (finds_spanFrom (finds_pure ⟨?_, rfl⟩))
    exact .conditional hword hcondition hthen (.absent hno) (by simp)

end Steps

theorem spelledAt : (fuel : Nat) → SpelledAt fuel
  | 0 => ⟨fun _ => finds_exhausted, fun _ => finds_exhausted, fun _ => finds_exhausted,
      fun _ _ => finds_exhausted, fun _ => finds_exhausted, fun _ => finds_exhausted,
      fun _ _ => finds_exhausted⟩
  | fuel + 1 =>
      have ih := spelledAt fuel
      ⟨expression_complete ih, unary_complete ih, primary_spelled ih, function_spelled ih,
        block_spelled ih, statement_spelled ih, conditional_spelled ih⟩

end Parse

end Scriptlet
