import Scriptlet.Proofs.Grammar.Spelled

/-! What is spelled between two cursors is written there, symbol by symbol, and follows the
rules of the grammar. -/

namespace Scriptlet

def Cursor.symbols (cursor : Cursor) : List Symbol := cursor.rest.map Token.symbol

def Token.lastSpan (tokens : List Token) (before : Span) : Span :=
  (tokens.getLast?.map Token.span).getD before

theorem Token.lastSpan_append (first second : List Token) (before : Span) :
    lastSpan (first ++ second) before = lastSpan second (lastSpan first before) := by
  cases second.eq_nil_or_concat with
  | inl h => simp [h, lastSpan]
  | inr h =>
      obtain ⟨others, last, rfl⟩ := h
      simp [lastSpan, ← List.append_assoc]

/-- The tokens are all that is passed between two cursors. -/
structure Uses (tokens : List Token) (before after : Cursor) : Prop where
  rest : before.rest = tokens ++ after.rest
  passed : after.passed = Token.lastSpan tokens before.passed
  finish : after.finish = before.finish

theorem Uses.append {first second : List Token} {before middle after : Cursor}
    (hfirst : Uses first before middle) (hsecond : Uses second middle after) :
    Uses (first ++ second) before after :=
  ⟨by rw [hfirst.rest, hsecond.rest, List.append_assoc],
    by rw [hsecond.passed, hfirst.passed, Token.lastSpan_append],
    hsecond.finish.trans hfirst.finish⟩

/-- The symbols are all that is passed between two cursors. -/
def Takes (symbols : List Symbol) (before after : Cursor) : Prop :=
  ∃ tokens, Uses tokens before after ∧ tokens.map Token.symbol = symbols

section Takes

variable {first second : List Symbol} {before middle after : Cursor}

theorem Takes.nil (place : Cursor) : Takes [] place place := ⟨[], ⟨rfl, rfl, rfl⟩, rfl⟩

theorem Takes.append (hfirst : Takes first before middle) (hsecond : Takes second middle after) :
    Takes (first ++ second) before after := by
  obtain ⟨tokens, huses, rfl⟩ := hfirst
  obtain ⟨tokens', huses', rfl⟩ := hsecond
  exact ⟨tokens ++ tokens', huses.append huses', List.map_append⟩

theorem Takes.cons {symbol : Symbol} (hfirst : Takes [symbol] before middle)
    (hsecond : Takes second middle after) : Takes (symbol :: second) before after :=
  hfirst.append hsecond

theorem Takes.symbols (h : Takes first before after) :
    before.symbols = first ++ after.symbols := by
  obtain ⟨tokens, huses, rfl⟩ := h
  simp [Cursor.symbols, huses.rest]

theorem Takes.finish (h : Takes first before after) : after.finish = before.finish := by
  obtain ⟨tokens, huses, _⟩ := h
  exact huses.finish

theorem Takes.peek_kind {symbol : Symbol} (h : Takes (symbol :: second) before after) :
    before.peek.kind = symbol.kind := by
  have hsymbols := h.symbols
  obtain ⟨rest, finish, passed, unnamed⟩ := before
  cases rest with
  | nil => simp [Cursor.symbols] at hsymbols
  | cons token rest =>
      simp only [Cursor.symbols, List.map_cons, List.cons_append, List.cons.injEq] at hsymbols
      simp [Cursor.peek, ← hsymbols.1]

theorem Takes.length (h : Takes first before after) :
    before.rest.length = first.length + after.rest.length := by
  simpa [Cursor.symbols] using congrArg List.length h.symbols

end Takes

theorem Token.symbol_of_mark {token : Token} {kind : Kind} (h : token.kind = kind)
    (hmark : kind ∉ [Kind.identifier, .number, .string]) : token.symbol = .mark kind := by
  subst h
  unfold symbol
  split <;> simp_all

section Passes

variable {kind : Kind} {token : Token} {before after : Cursor}

theorem Passes.takes (h : Passes kind token before after) : Takes [token.symbol] before after := by
  cases h
  exact ⟨[token], ⟨rfl, rfl, rfl⟩, rfl⟩

theorem Passes.takes_mark (h : Passes kind token before after)
    (hmark : kind ∉ [Kind.identifier, .number, .string] := by decide) :
    Takes [.mark kind] before after := by
  have hkind : token.kind = kind := h.peek ▸ h.peek_kind
  exact Token.symbol_of_mark hkind hmark ▸ h.takes

theorem Passes.takes_name (h : Passes .identifier token before after) :
    Takes [.name token.lexeme] before after := by
  have hkind : token.kind = .identifier := h.peek ▸ h.peek_kind
  have hsymbol : token.symbol = .name token.lexeme := by simp [Token.symbol, hkind]
  exact hsymbol ▸ h.takes

end Passes

section Combinators

variable {α : Type} {item : α → Cursor → Cursor → Prop} {symbols : α → List Symbol}
  {before after : Cursor}

theorem Listed.takes {items : List α}
    (h : Listed (fun a s t => Takes (symbols a) s t) items before after) :
    Takes (Symbol.separated (items.map symbols)) before after := by
  induction h with
  | nil => exact .nil _
  | one hitem => exact hitem
  | more hitem hcomma _ ih => exact hitem.append (hcomma.takes_mark.cons ih)

theorem Behind.takes {mark : Kind} {value : Option α}
    (h : Behind mark (fun a s t => Takes (symbols a) s t) value before after)
    (hmark : mark ∉ [Kind.identifier, .number, .string] := by decide) :
    Takes (Symbol.after mark (value.map symbols)) before after := by
  cases h with
  | absent => exact .nil _
  | present hpass hitem => exact (hpass.takes_mark hmark).cons hitem

end Combinators

mutual

theorem TypeExpr.Spelled.takes {written : TypeExpr} {before after : Cursor} :
    written.Spelled before after → Takes written.symbols before after
  | .named h => h.takes_name
  | .function hword hopening hparams hclosing hresult => by
      have hparams := (TypeExpr.listed_takes hparams).takes
      have hresult := (TypeExpr.behind_takes hresult).takes
      have hlisted := hopening.takes_mark.cons (hparams.append hclosing.takes_mark)
      simpa [TypeExpr.symbols, Symbol.listed] using hword.takes_mark.cons (hlisted.append hresult)

theorem TypeExpr.listed_takes {written : List TypeExpr} {before after : Cursor} :
    Listed TypeExpr.Spelled written before after →
      Listed (fun written s t => Takes written.symbols s t) written before after
  | .nil => .nil
  | .one h => .one h.takes
  | .more h hcomma hrest => .more h.takes hcomma (TypeExpr.listed_takes hrest)

theorem TypeExpr.behind_takes {mark : Kind} {written : Option TypeExpr} {before after : Cursor} :
    Behind mark TypeExpr.Spelled written before after →
      Behind mark (fun written s t => Takes written.symbols s t) written before after
  | .absent h => .absent h
  | .present hmark h => .present hmark h.takes

end

theorem Param.Spelled.takes {param : Param} {before after : Cursor}
    (h : param.Spelled before after) : Takes param.symbols before after := by
  cases h with
  | intro hname hdeclared =>
      exact hname.takes_name.cons (TypeExpr.behind_takes hdeclared).takes

theorem Literal.Spelled.written {value : Literal} {token : Token} {before after : Cursor}
    (h : value.Spelled token before after) :
    value.IsRead ∧ Takes [value.symbol] before after := by
  cases h with
  | @number _ payload _ _ h hpayload =>
      have hkind : token.kind = .number := h.peek ▸ h.peek_kind
      have hsymbol : token.symbol = .number (.number payload) := by
        simp [Token.symbol, hkind, hpayload]
      have htakes := hsymbol ▸ h.takes
      rcases Literal.number_cases payload with ⟨n, hnumber⟩ | hnumber
      · rw [hnumber] at htakes ⊢
        exact ⟨⟨payload, hnumber⟩, htakes⟩
      · rw [hnumber] at htakes ⊢
        exact ⟨⟨payload, hnumber⟩, htakes⟩
  | @text _ text _ _ h hpayload =>
      have hkind : token.kind = .string := h.peek ▸ h.peek_kind
      have hsymbol : token.symbol = .text text := by simp [Token.symbol, hkind, hpayload]
      have htakes := hsymbol ▸ h.takes
      exact ⟨trivial, htakes⟩
  | yes h => exact ⟨trivial, h.takes_mark⟩
  | no h => exact ⟨trivial, h.takes_mark⟩

theorem Names.takes {anonymous : Bool} {name : String} {before after : Cursor}
    (h : Names anonymous name before after) :
    Takes (if anonymous then [] else [.name name]) before after := by
  cases h with
  | own h => exact h.takes_name
  | fresh => exact ⟨[], ⟨rfl, rfl, rfl⟩, rfl⟩

theorem UnaryOp.kind_isMark (op : UnaryOp) :
    op.kind ∉ [Kind.identifier, .number, .string] := by
  cases op <;> decide

theorem BinaryOp.kind_isMark (op : BinaryOp) :
    op.kind ∉ [Kind.identifier, .number, .string] := by
  cases op <;> decide

theorem listed_takes_between {pieces : List (List Symbol)} {opening closing : Token}
    {before first second after : Cursor} (hopening : Passes .leftParen opening before first)
    (hpieces : Takes (Symbol.separated pieces) first second)
    (hclosing : Passes .rightParen closing second after) :
    Takes (Symbol.listed pieces) before after :=
  hopening.takes_mark.cons (hpieces.append hclosing.takes_mark)

theorem Behind.and_left {α : Type} {property : α → Prop} {item : α → Cursor → Cursor → Prop}
    {mark : Kind} {value : Option α} {before after : Cursor}
    (h : Behind mark (fun a s t => property a ∧ item a s t) value before after) :
    ∀ a ∈ value, property a := by
  cases h with
  | absent => simp
  | present _ hitem => simpa using hitem.1

theorem Listed.and_left {α : Type} {property : α → Prop} {item : α → Cursor → Cursor → Prop}
    {items : List α} {before after : Cursor}
    (h : Listed (fun a s t => property a ∧ item a s t) items before after) :
    ∀ a ∈ items, property a := by
  induction h with
  | nil => simp
  | one hitem => simpa using hitem.1
  | more hitem _ _ ih => exact List.forall_mem_cons.mpr ⟨hitem.1, ih⟩

theorem Stmt.Spelled.stops {stmt : Stmt} {before after : Cursor} (h : stmt.Spelled before after) :
    ((∃ span, stmt = .ret none span) → after.peek.kind = .rightBrace ∨
      after.peek.kind = .endOfInput) ∧ (stmt.endsInExpr → after.peek.kind.Stops 0) := by
  cases h with
  | expression _ _ stop => exact ⟨by simp, fun _ => stop⟩
  | @binding _ _ _ init _ _ _ _ _ _ _ _ _ stop =>
      refine ⟨by simp, fun hends => stop ?_⟩
      cases init with
      | none => simp [endsInExpr] at hends
      | some init => rfl
  | finish _ stop => exact ⟨fun _ => stop, by simp [endsInExpr]⟩
  | ret _ _ stop => exact ⟨by simp, fun _ => stop⟩
  | _ => exact ⟨by simp, by simp [endsInExpr]⟩

theorem Stmt.stopsBefore_of_takes {stmt : Stmt} {rest : List Stmt} {before middle after : Cursor}
    (h : stmt.Spelled before middle) (hrest : Takes (Stmt.allSymbols rest) middle after) :
    stmt.StopsBefore rest := by
  obtain ⟨hfinish, hexpr⟩ := h.stops
  cases rest with
  | nil => exact ⟨fun _ _ => rfl, by simp⟩
  | cons next rest =>
      obtain ⟨first, others, hsymbols, hfirst⟩ := next.symbols_start
      have hpeek : middle.peek.kind = first.kind := by
        rw [Stmt.allSymbols, hsymbols] at hrest
        exact hrest.peek_kind
      refine ⟨fun span hspan => ?_, fun hends => ?_⟩
      · have hstart : middle.peek.kind ∈ Kind.stmtStarts := hpeek ▸ hfirst
        rcases hfinish ⟨span, hspan⟩ with hbrace | hend
        · rw [hbrace] at hstart
          exact absurd hstart (by decide)
        · rw [hend] at hstart
          exact absurd hstart (by decide)
      · have hstop := hpeek ▸ hexpr hends
        simp only [List.head?_cons, Option.mem_def, Option.some.injEq, forall_eq', hsymbols, ne_eq]
        constructor <;> rintro rfl
        · exact absurd hstop (by decide)
        · exact absurd hstop (by decide)

mutual

theorem Expr.Spelled.written {expr : Expr} {before after : Cursor} :
    expr.Spelled before after → expr.Grammatical ∧ Takes expr.symbols before after
  | .literal h => h.written
  | .variable h => ⟨trivial, h.takes_name⟩
  | .assign hname hequal hvalue => by
      obtain ⟨hgrammar, htakes⟩ := hvalue.written
      exact ⟨hgrammar, hname.takes_name.cons (hequal.takes_mark.cons htakes)⟩
  | .group hopening hinner hclosing => by
      obtain ⟨hgrammar, htakes⟩ := hinner.written
      exact ⟨hgrammar, hopening.takes_mark.cons (htakes.append hclosing.takes_mark)⟩
  | .unary hop hoperand level => by
      obtain ⟨hgrammar, htakes⟩ := hoperand.written
      exact ⟨⟨hgrammar, level⟩, (hop.takes_mark (UnaryOp.kind_isMark _)).cons htakes⟩
  | .binary hleft hop hright leftLevel rightLevel => by
      obtain ⟨hgrammar, htakes⟩ := hleft.written
      obtain ⟨hgrammar', htakes'⟩ := hright.written
      exact ⟨⟨hgrammar, hgrammar', leftLevel, rightLevel⟩,
        htakes.append ((hop.takes_mark (BinaryOp.kind_isMark _)).cons htakes')⟩
  | .call hcallee hopening hargs hclosing level arity => by
      obtain ⟨hgrammar, htakes⟩ := hcallee.written
      have hargs := Expr.listed_written hargs
      refine ⟨⟨hgrammar, level, Expr.allGrammatical_iff.mpr hargs.and_left, arity⟩, ?_⟩
      have hlisted := listed_takes_between hopening (hargs.imp fun h => h.2).takes hclosing
      simpa [Expr.symbols] using htakes.append hlisted
  | .function hword hdecl => by
      obtain ⟨hgrammar, htakes⟩ := hdecl.written hword
      exact ⟨hgrammar, htakes⟩

theorem Expr.listed_written {exprs : List Expr} {before after : Cursor} :
    Listed Expr.Spelled exprs before after →
      Listed (fun expr s t => expr.Grammatical ∧ Takes expr.symbols s t) exprs before after
  | .nil => .nil
  | .one h => .one h.written
  | .more h hcomma hrest => .more h.written hcomma (Expr.listed_written hrest)

theorem Expr.behind_written {expr : Option Expr} {before after : Cursor} :
    Behind .equal Expr.Spelled expr before after →
      Behind .equal (fun expr s t => expr.Grammatical ∧ Takes expr.symbols s t) expr before after
  | .absent h => .absent h
  | .present hmark h => .present hmark h.written

theorem FnDecl.Spelled.written {decl : FnDecl} {start : Span} {word : Token}
    {before middle after : Cursor} :
    decl.Spelled start middle after → Passes .fnWord word before middle →
      decl.Grammatical ∧ Takes decl.symbols before after
  | .intro hname hopening hparams hclosing hresult hbody arity, hword => by
      obtain ⟨hgrammar, htakes⟩ := hbody.written
      refine ⟨⟨arity, ?_⟩, ?_⟩
      · exact Block.grammatical_iff.mp hgrammar
      · have hlisted :=
          listed_takes_between hopening (hparams.imp fun h => h.takes).takes hclosing
        have hresult := (TypeExpr.behind_takes hresult).takes
        rw [Block.symbols_eq] at htakes
        exact hword.takes_mark.cons
          (hname.takes.append (hlisted.append (hresult.append htakes)))

theorem Block.Spelled.written {block : Block} {before after : Cursor} :
    block.Spelled before after → block.Grammatical ∧ Takes block.symbols before after
  | .intro hopening hstatements hclosing => by
      obtain ⟨hgrammar, htakes⟩ := Stmt.sequence_written hstatements
      exact ⟨hgrammar, hopening.takes_mark.cons (htakes.append hclosing.takes_mark)⟩

theorem Stmt.Spelled.written {stmt : Stmt} {before after : Cursor} :
    stmt.Spelled before after → stmt.Grammatical ∧ Takes stmt.symbols before after
  | .expression hexpr start stop => by
      obtain ⟨hgrammar, htakes⟩ := hexpr.written
      refine ⟨⟨hgrammar, fun hhead => start ?_⟩, htakes⟩
      obtain ⟨rest, hsymbols⟩ := List.head?_eq_some_iff.mp hhead
      exact (hsymbols ▸ htakes).peek_kind
  | .binding hword hname hdeclared hinit _ => by
      have hinit := Expr.behind_written hinit
      refine ⟨Stmt.grammatical_binding.mpr hinit.and_left, ?_⟩
      have htakes := (TypeExpr.behind_takes hdeclared).takes.append
        (hinit.imp fun h => h.2).takes
      simpa [Stmt.symbols] using hword.takes_mark.cons (hname.takes_name.cons htakes)
  | .block hblock => hblock.written
  | .conditional hword hcondition hthen hotherwise branch => by
      obtain ⟨hgrammar, htakes⟩ := hcondition.written
      obtain ⟨hgrammar', htakes'⟩ := hthen.written
      have hotherwise := Stmt.behind_written hotherwise
      refine ⟨Stmt.grammatical_conditional.mpr ⟨hgrammar, hgrammar',
        fun stmt hstmt => ⟨hotherwise.and_left stmt hstmt, branch stmt hstmt⟩⟩, ?_⟩
      have helse := (hotherwise.imp fun h => h.2).takes
      simpa [Stmt.symbols] using
        hword.takes_mark.cons (htakes.append (htakes'.append helse))
  | .loop hword hcondition hbody => by
      obtain ⟨hgrammar, htakes⟩ := hcondition.written
      obtain ⟨hgrammar', htakes'⟩ := hbody.written
      exact ⟨⟨hgrammar, hgrammar'⟩, hword.takes_mark.cons (htakes.append htakes')⟩
  | .function hword hdecl => hdecl.written hword
  | .finish hword _ => ⟨trivial, hword.takes_mark⟩
  | .ret hword hvalue _ => by
      obtain ⟨hgrammar, htakes⟩ := hvalue.written
      exact ⟨hgrammar, hword.takes_mark.cons htakes⟩

theorem Stmt.behind_written {stmt : Option Stmt} {before after : Cursor} :
    Behind .elseWord Stmt.Spelled stmt before after →
      Behind .elseWord (fun stmt s t => stmt.Grammatical ∧ Takes stmt.symbols s t) stmt before after
  | .absent h => .absent h
  | .present hmark h => .present hmark h.written

theorem Stmt.sequence_written {stmts : List Stmt} {before after : Cursor} :
    Sequence Stmt.Spelled stmts before after →
      Stmt.AllGrammatical stmts ∧ Takes (Stmt.allSymbols stmts) before after
  | .nil => ⟨trivial, .nil _⟩
  | .cons hstmt hrest => by
      obtain ⟨hgrammar, htakes⟩ := hstmt.written
      obtain ⟨hgrammar', htakes'⟩ := Stmt.sequence_written hrest
      exact ⟨⟨hgrammar, Stmt.stopsBefore_of_takes hstmt htakes', hgrammar'⟩,
        htakes.append htakes'⟩

end

end Scriptlet
