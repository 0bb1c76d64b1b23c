import Scriptlet.Proofs.Grammar.Written

/-! How far a phrase extends. Its span runs from its first token through its last one, so a
statement can be cut out of the source by its span. -/

namespace Scriptlet

namespace Span

variable {start middle inner finish : Span}

theorem stop_upTo (start finish : Span) :
    (start.upTo finish).stop = max finish.stop start.stop := by
  have hstart : start.offset ≤ start.stop := Nat.le_add_right _ _
  simp only [upTo, stop] at hstart ⊢
  omega

theorem upTo_self (span : Span) : span.upTo span = span := by
  obtain ⟨offset, len, line⟩ := span
  simp [upTo, stop]

theorem upTo_within (h : inner.stop ≤ finish.stop) :
    start.upTo (inner.upTo finish) = start.upTo finish := by
  rw [upTo, stop_upTo, Nat.max_eq_left h, ← upTo]

theorem upTo_trans (h : middle.stop ≤ finish.stop) :
    (start.upTo middle).upTo finish = start.upTo finish := by
  rw [upTo, stop_upTo, ← Nat.max_assoc, Nat.max_eq_left h, upTo, upTo]

end Span

def Stmt.span : Stmt → Span
  | .expression expr => expr.span
  | .binding _ _ _ mark => mark.span
  | .block inner => inner.span
  | .conditional _ _ _ span | .loop _ _ span | .ret _ span => span
  | .function decl => decl.mark.span

def Cursor.Ordered (cursor : Cursor) : Prop :=
  cursor.rest.Pairwise fun first second => first.span.stop ≤ second.span.offset

section Ordered

variable {tokens : List Token} {first second : List Symbol} {before middle after : Cursor}

theorem Uses.stop_le (h : Uses tokens before after) (hordered : before.Ordered) {token : Token}
    (hmem : token ∈ tokens) : token.span.stop ≤ after.passed.stop := by
  obtain ⟨others, last, rfl⟩ :=
    (List.eq_nil_or_concat tokens).resolve_left (List.ne_nil_of_mem hmem)
  have hpassed : after.passed = last.span := by simp [h.passed, Token.lastSpan]
  rw [Cursor.Ordered, h.rest, List.pairwise_append, List.concat_eq_append,
    List.pairwise_append] at hordered
  rw [hpassed]
  rcases List.mem_append.mp (List.concat_eq_append ▸ hmem) with hmem | hmem
  · have hle : token.span.stop ≤ last.span.offset := hordered.1.2.2 token hmem last (by simp)
    exact Nat.le_trans hle (Nat.le_add_right _ _)
  · exact Nat.le_of_eq (by rw [List.mem_singleton.mp hmem])

theorem Takes.ordered (h : Takes first before after) (hordered : before.Ordered) :
    after.Ordered := by
  obtain ⟨tokens, huses, _⟩ := h
  rw [Cursor.Ordered, huses.rest] at hordered
  exact (List.pairwise_append.mp hordered).2.1

theorem Takes.peek_stop_le (h : Takes first before after) (hne : first ≠ [])
    (hordered : before.Ordered) : before.peek.span.stop ≤ after.passed.stop := by
  obtain ⟨tokens, huses, rfl⟩ := h
  refine huses.stop_le hordered ?_
  cases tokens with
  | nil => exact absurd rfl hne
  | cons token tokens => simp [Cursor.peek, huses.rest]

theorem Takes.passed_stop_le (hfirst : Takes first before middle) (hne : first ≠ [])
    (hsecond : Takes second middle after) (hordered : before.Ordered) :
    middle.passed.stop ≤ after.passed.stop := by
  obtain ⟨tokens, huses, rfl⟩ := hfirst
  obtain ⟨tokens', huses', rfl⟩ := hsecond
  obtain ⟨others, last, rfl⟩ :=
    (List.eq_nil_or_concat tokens).resolve_left fun hnil => hne (by rw [hnil, List.map_nil])
  have hpassed : middle.passed = last.span := by simp [huses.passed, Token.lastSpan]
  rw [hpassed]
  exact (huses.append huses').stop_le hordered (by simp)

end Ordered

theorem Expr.symbols_ne_nil (expr : Expr) : expr.symbols ≠ [] := by
  obtain ⟨first, rest, hsymbols, _⟩ := expr.symbols_start
  simp [hsymbols]

theorem FnDecl.Spelled.extent {decl : FnDecl} {start : Span} {before after : Cursor}
    (h : decl.Spelled start before after) : decl.mark.span = start.upTo after.passed := by
  cases h
  rfl

theorem Expr.Spelled.extent {expr : Expr} {before after : Cursor}
    (h : expr.Spelled before after) (hordered : before.Ordered) :
    expr.span = before.peek.span.upTo after.passed := by
  cases h with
  | literal hvalue =>
      cases hvalue
      all_goals
        rename_i h
        cases h
        exact (Span.upTo_self _).symm
  | «variable» h =>
      cases h
      exact (Span.upTo_self _).symm
  | assign hname hequal hvalue =>
      have hsecond := hequal.takes.ordered (hname.takes.ordered hordered)
      rw [hname.peek, Expr.span, Expr.mark, hvalue.extent hsecond]
      exact Span.upTo_within (hvalue.written.2.peek_stop_le (Expr.symbols_ne_nil _) hsecond)
  | group hopening _ _ =>
      rw [hopening.peek]
      rfl
  | unary hop hoperand _ =>
      have hmiddle := hop.takes.ordered hordered
      rw [hop.peek, Expr.span, Expr.mark, hoperand.extent hmiddle]
      exact Span.upTo_within (hoperand.written.2.peek_stop_le (Expr.symbols_ne_nil _) hmiddle)
  | binary hleft hop hright _ _ =>
      have hleftTakes := hleft.written.2
      have hrightTakes := hright.written.2
      have hsecond := hop.takes.ordered (hleftTakes.ordered hordered)
      rw [Expr.span, Expr.mark, hleft.extent hordered, hright.extent hsecond,
        Span.upTo_within (hrightTakes.peek_stop_le (Expr.symbols_ne_nil _) hsecond)]
      exact Span.upTo_trans (hleftTakes.passed_stop_le (Expr.symbols_ne_nil _)
        (hop.takes.cons hrightTakes) hordered)
  | call hcallee hopening hargs hclosing _ _ =>
      have hlisted := listed_takes_between hopening
        ((Expr.listed_written hargs).imp fun h => h.2).takes hclosing
      rw [Expr.span, Expr.mark, hcallee.extent hordered]
      exact Span.upTo_trans (hcallee.written.2.passed_stop_le (Expr.symbols_ne_nil _) hlisted
        hordered)
  | function hword hdecl =>
      rw [hword.peek]
      exact hdecl.extent

theorem Stmt.Spelled.extent {stmt : Stmt} {before after : Cursor} (h : stmt.Spelled before after)
    (hordered : before.Ordered) : stmt.span = before.peek.span.upTo after.passed := by
  cases h with
  | expression hexpr _ _ => exact hexpr.extent hordered
  | binding hword => rw [hword.peek]; rfl
  | block hblock =>
      cases hblock with
      | intro hopening => rw [hopening.peek]; rfl
  | conditional hword => rw [hword.peek]; rfl
  | loop hword => rw [hword.peek]; rfl
  | function hword hdecl =>
      rw [hword.peek]
      exact hdecl.extent
  | finish hword => rw [hword.peek]; rfl
  | ret hword => rw [hword.peek]; rfl

end Scriptlet
