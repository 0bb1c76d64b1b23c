import Scriptlet.Proofs.Grammar.Excerpt
import Scriptlet.Proofs.Parsing

/-! Parsing a statement alone. The tokens of one statement, counted from their own beginning and
with an end behind them, are parsed as that statement, and nothing else. -/

namespace Scriptlet

section Anew

variable {before after : Cursor}

def Cursor.anew (cursor : Cursor) (passed : Span) : Cursor := { cursor with passed := passed }

theorem Passes.anew {kind : Kind} {token : Token} (h : Passes kind token before after)
    (passed : Span) : Passes kind token (before.anew passed) after := by
  cases h
  exact .intro ‹_›

theorem Literal.Spelled.anew {value : Literal} {token : Token}
    (h : value.Spelled token before after) (passed : Span) :
    value.Spelled token (before.anew passed) after := by
  cases h with
  | number h hpayload => exact .number (h.anew passed) hpayload
  | text h hpayload => exact .text (h.anew passed) hpayload
  | yes h => exact .yes (h.anew passed)
  | no h => exact .no (h.anew passed)

theorem Expr.Spelled.anew {expr : Expr} {before after : Cursor} :
    expr.Spelled before after → ∀ passed, expr.Spelled (before.anew passed) after
  | .literal h, passed => .literal (h.anew passed)
  | .variable h, passed => .variable (h.anew passed)
  | .assign hname hequal hvalue, passed => .assign (hname.anew passed) hequal hvalue
  | .group hopening hinner hclosing, passed => .group (hopening.anew passed) hinner hclosing
  | .unary hop hoperand level, passed => .unary (hop.anew passed) hoperand level
  | .binary hleft hop hright leftLevel rightLevel, passed =>
      .binary (hleft.anew passed) hop hright leftLevel rightLevel
  | .call hcallee hopening hargs hclosing level arity, passed =>
      .call (hcallee.anew passed) hopening hargs hclosing level arity
  | .function hword hdecl, passed => .function (hword.anew passed) hdecl

theorem Stmt.Spelled.anew {stmt : Stmt} (h : stmt.Spelled before after) (passed : Span) :
    stmt.Spelled (before.anew passed) after := by
  cases h with
  | expression hexpr start stop => exact .expression (hexpr.anew passed) start stop
  | binding hword hname hdeclared hinit stop =>
      exact .binding (hword.anew passed) hname hdeclared hinit stop
  | block hblock =>
      cases hblock with
      | intro hopening hstatements hclosing =>
          exact .block (.intro (hopening.anew passed) hstatements hclosing)
  | conditional hword hcondition hthen hotherwise branch =>
      exact .conditional (hword.anew passed) hcondition hthen hotherwise branch
  | loop hword hcondition hbody => exact .loop (hword.anew passed) hcondition hbody
  | function hword hdecl => exact .function (hword.anew passed) hdecl
  | finish hword stop => exact .finish (hword.anew passed) stop
  | ret hword hvalue stop => exact .ret (hword.anew passed) hvalue stop

end Anew

theorem Stmt.sequence_unique {stmts stmts' : List Stmt} {before last last' : Cursor}
    (h : Sequence Stmt.Spelled stmts before last) (hlast : last.peek.kind = .endOfInput)
    (h' : Sequence Stmt.Spelled stmts' before last') (hlast' : last'.peek.kind = .endOfInput) :
    stmts = stmts' ∧ last = last' := by
  have hgives : ∀ {stmts last}, Sequence Stmt.Spelled stmts before last →
      last.peek.kind = .endOfInput → (Parse.many (· == .endOfInput)
        (Parse.statement (8 * before.left + 1)) (8 * before.left + 1)).Gives before stmts last :=
    fun h hlast => Parse.gives_statements (Parse.statements_stand h) (by simp [hlast])
      (by decide) (by omega)
  have hfirst := hgives h hlast
  have hsecond := hgives h' hlast'
  unfold Parse.Gives at hfirst hsecond
  simpa using hfirst.symm.trans hsecond

theorem Cursor.ofTokens_closed {tokens : List Token} {finish : Token}
    (hinside : ∀ token ∈ tokens, token.kind ≠ .endOfInput) (hfinish : finish.kind = .endOfInput)
    (unnamed : Nat) :
    ofTokens (tokens ++ [finish]) unnamed = ⟨tokens, finish, finish.span, unnamed⟩ := by
  have htokens : (tokens ++ [finish]).takeWhile (·.kind != .endOfInput) = tokens := by
    rw [List.takeWhile_append_of_pos (by simpa using hinside)]
    simp [hfinish]
  have hfind : (tokens ++ [finish]).find? (·.kind == .endOfInput) = some finish := by
    have hnone : tokens.find? (·.kind == .endOfInput) = none := by simpa using hinside
    simp [List.find?_append, hnone, hfinish]
  rw [ofTokens, htokens, hfind]
  rfl

@[simp] theorem Token.symbol_shift (bytes lines : Nat) (token : Token) :
    (token.shift bytes lines).symbol = token.symbol := rfl

theorem Uses.symbols_eq {tokens : List Token} {symbols : List Symbol} {before after : Cursor}
    (h : Uses tokens before after) (htakes : Takes symbols before after) :
    tokens.map Token.symbol = symbols := by
  have hsymbols := htakes.symbols
  rw [Cursor.symbols, h.rest, List.map_append] at hsymbols
  exact List.append_cancel_right hsymbols

namespace Program

/-- The tokens of a statement are parsed alone as the same statement, which moves with them. -/
theorem ofTokens_alone {stmt : Stmt} {before after : Cursor} {tokens : List Token}
    {finish : Token} {bytes lines : Nat} (h : stmt.Spelled before after)
    (huses : Uses (tokens.map (Token.shift bytes lines)) before after)
    (hinside : ∀ token ∈ tokens, token.kind ≠ .endOfInput) (hfinish : finish.kind = .endOfInput) :
    ∃ read, ofTokens (tokens ++ [finish]) before.unnamed = ⟨.ok ⟨[read]⟩, after.unnamed⟩ ∧
      stmt = read.relabel (.shift bytes lines) := by
  obtain ⟨hgrammar, htakes⟩ := h.written
  have hstart := Cursor.ofTokens_closed hinside hfinish before.unnamed
  -- There is some statement that the tokens spell.
  have hahead : Ahead ⟨tokens, finish, finish.span, before.unnamed⟩
      (Stmt.allSymbols [stmt] ++ []) := by
    refine ⟨?_, hfinish⟩
    have hsymbols := huses.symbols_eq htakes
    simpa [Cursor.symbols, Stmt.allSymbols, Function.comp_def] using hsymbols
  have hstops : stmt.StopsBefore [] := Stmt.stopsBefore_of_takes h (.nil _)
  obtain ⟨reads, last, hreads, hlast, hbare⟩ :=
    Stmt.all_readable [stmt] ⟨hgrammar, hstops, trivial⟩ _ [] hahead (.inr rfl)
  obtain ⟨read, rfl, _⟩ := List.map_eq_singleton_iff.mp hbare
  have hrest : last.rest = [] := List.map_eq_nil_iff.mp hlast.symbols
  -- Moved to where the tokens come from it is spelled by them, as is the statement cut out there.
  let moved : Excerpt := ⟨bytes, lines, 0, finish.shift bytes lines, hfinish⟩
  let alone : Excerpt := ⟨0, 0, after.rest.length, finish.shift bytes lines, hfinish⟩
  have hspares : moved.Spares last := Nat.zero_le _
  have hmoved := Stmt.sequence_excerpt hreads hspares
  have hspares : alone.Spares after := Nat.le_refl _
  have halone := h.excerpt hspares
  have hsame : moved.of ⟨tokens, finish, finish.span, before.unnamed⟩ =
      (alone.of before).anew (finish.span.shift bytes lines) := by
    simp [Excerpt.of, Cursor.anew, moved, alone, huses.rest, Function.comp_def, Excerpt.token]
  have hends : ∀ part : Excerpt, ∀ cursor : Cursor, cursor.rest.length ≤ part.dropped →
      (part.of cursor).peek.kind = .endOfInput := by
    intro part cursor hdropped
    simp [Excerpt.of, Cursor.peek, Nat.sub_eq_zero_of_le hdropped, part.ends]
  rw [hsame] at hmoved
  rw [Excerpt.change, Stmt.relabel_zero] at halone
  obtain ⟨hread, hlast⟩ := Stmt.sequence_unique hmoved (hends moved last (by simp [hrest]))
    (.cons (halone.anew _) .nil) (hends alone after (Nat.le_refl _))
  have hunnamed : (moved.of last).unnamed = (alone.of after).unnamed := by rw [hlast]
  have hunnamed : last.unnamed = after.unnamed := hunnamed
  refine ⟨read, ?_, (List.cons.inj hread).1.symm⟩
  rw [← hunnamed]
  exact ofTokens_of_spelled ⟨last, hstart ▸ hreads, hrest, rfl⟩

end Program

end Scriptlet
