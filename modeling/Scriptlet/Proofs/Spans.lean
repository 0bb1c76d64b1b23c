import Scriptlet.Proofs.Grammar.Contained
import Scriptlet.Proofs.Parsing
import Scriptlet.Proofs.Scanning
import Scriptlet.Proofs.Tree.Parsed

/-! Spans are exact. Whatever is parsed has its tokens to itself, and its span runs from the first
of them through the last one. So the phrases below a phrase lie in it, one behind the other. -/

namespace Scriptlet

/-- Where what is left stands in the order of the text, the pieces cover all that is passed
between two cursors. The spans depend on that order, which each step hands on to the next one. -/
def Lays (pieces : List Piece) (before after : Cursor) : Prop :=
  before.Ordered → ∃ tokens, Uses tokens before after ∧ Covered pieces tokens

theorem Uses.runsOver {tokens : List Token} {before after : Cursor} (h : Uses tokens before after)
    (hne : tokens ≠ []) (hordered : before.Ordered) :
    (before.peek.span.upTo after.passed).RunsOver tokens := by
  obtain ⟨first, rest, hfirst⟩ := List.exists_cons_of_ne_nil hne
  have hpeek : before.peek = first := by simp [Cursor.peek, h.rest, hfirst]
  have hlast := List.getLast?_eq_some_getLast hne
  have hpassed : after.passed = (tokens.getLast hne).span := by
    simp [h.passed, Token.lastSpan, hlast]
  have hle := h.stop_le hordered (hfirst ▸ List.mem_cons_self : first ∈ tokens)
  refine ⟨first, _, by simp [hfirst], hlast, by rw [hpeek]; rfl, ?_, by rw [hpeek]; rfl⟩
  rw [hpeek, Span.stop_upTo, Nat.max_eq_left hle, hpassed]

section Lays

variable {pieces first second : List Piece} {phrase : Phrase} {before middle after : Cursor}

theorem Lays.append (hfirst : Lays first before middle) (hsecond : Lays second middle after) :
    Lays (first ++ second) before after := by
  intro hordered
  obtain ⟨tokens, huses, hcovered⟩ := hfirst hordered
  have hmiddle := Takes.ordered ⟨tokens, huses, rfl⟩ hordered
  obtain ⟨tokens', huses', hcovered'⟩ := hsecond hmiddle
  exact ⟨tokens ++ tokens', huses.append huses', hcovered.append hcovered'⟩

theorem Lays.cons {piece : Piece} (hfirst : Lays [piece] before middle)
    (hsecond : Lays second middle after) : Lays (piece :: second) before after :=
  hfirst.append hsecond

theorem Lays.nil (place : Cursor) : Lays [] place place :=
  fun _ => ⟨[], ⟨rfl, rfl, rfl⟩, .nil⟩

theorem Takes.lays {symbols : List Symbol} (h : Takes symbols before after) :
    Lays (symbols.map .symbol) before after := by
  intro _
  obtain ⟨tokens, huses, rfl⟩ := h
  exact ⟨tokens, huses, .of_symbols tokens⟩

theorem Lays.part (h : Lays phrase.pieces before after)
    (hspan : before.Ordered → phrase.span = before.peek.span.upTo after.passed) :
    Lays [.part phrase] before after := by
  intro hordered
  obtain ⟨tokens, huses, hcovered⟩ := h hordered
  have hruns := huses.runsOver (hcovered.ne_nil phrase.pieces_ne_nil) hordered
  have hwhole : Covered [.part phrase] (tokens ++ []) :=
    .part hcovered (hspan hordered ▸ hruns) .nil
  exact ⟨tokens, huses, List.append_nil tokens ▸ hwhole⟩

theorem Passes.lays {kind : Kind} {token : Token} (h : Passes kind token before after)
    (hmark : kind ∉ [Kind.identifier, .number, .string] := by decide) :
    Lays [.sign kind] before after :=
  (h.takes_mark hmark).lays

variable {α : Type} (part : α → Phrase)

theorem Listed.lays {items : List α}
    (h : Listed (fun item s t => Lays [.part (part item)] s t) items before after) :
    Lays (Piece.separated (items.map part)) before after := by
  induction h with
  | nil => exact .nil _
  | one hitem => exact hitem
  | more hitem hcomma _ ih => exact hitem.cons (hcomma.lays.cons ih)

theorem Behind.lays {mark : Kind} {value : Option α}
    (h : Behind mark (fun item s t => Lays [.part (part item)] s t) value before after)
    (hmark : mark ∉ [Kind.identifier, .number, .string] := by decide) :
    Lays (Piece.behind mark (value.map part)) before after := by
  cases h with
  | absent => exact .nil _
  | present hpass hitem => exact (hpass.lays hmark).cons hitem

theorem listed_lays_between {phrases : List Phrase} {opening closing : Token}
    {inside behind : Cursor} (hopening : Passes .leftParen opening before inside)
    (hphrases : Lays (Piece.separated phrases) inside behind)
    (hclosing : Passes .rightParen closing behind after) :
    Lays (Piece.listed phrases) before after :=
  hopening.lays.cons (hphrases.append hclosing.lays)

end Lays

mutual

theorem TypeExpr.Spelled.lays {type : TypeExpr} {before after : Cursor} :
    type.Spelled before after → Lays [.part (.written type)] before after
  | .named h => .part h.takes_name.lays fun _ => by
      cases h
      exact (Span.upTo_self _).symm
  | .function hword hopening hparams hclosing hresult => by
      have hparams := Listed.lays .written (TypeExpr.listed_lays hparams)
      have hresult := Behind.lays .written (TypeExpr.behind_lays hresult)
      have hlisted := listed_lays_between hopening hparams hclosing
      refine .part (hword.lays.cons (hlisted.append hresult)) fun _ => ?_
      rw [hword.peek]
      rfl

theorem TypeExpr.listed_lays {types : List TypeExpr} {before after : Cursor} :
    Listed TypeExpr.Spelled types before after →
      Listed (fun type s t => Lays [.part (.written type)] s t) types before after
  | .nil => .nil
  | .one h => .one h.lays
  | .more h hcomma hrest => .more h.lays hcomma (TypeExpr.listed_lays hrest)

theorem TypeExpr.behind_lays {mark : Kind} {type : Option TypeExpr} {before after : Cursor} :
    Behind mark TypeExpr.Spelled type before after →
      Behind mark (fun type s t => Lays [.part (.written type)] s t) type before after
  | .absent h => .absent h
  | .present hmark h => .present hmark h.lays

end

theorem Param.Spelled.lays {param : Param} {before after : Cursor}
    (h : param.Spelled before after) : Lays [.part (.param param)] before after := by
  cases h with
  | intro hname hdeclared =>
      have hdeclared := Behind.lays .written (TypeExpr.behind_lays hdeclared)
      refine .part (hname.takes_name.lays.cons hdeclared) fun _ => ?_
      rw [hname.peek]
      rfl

mutual

theorem Expr.Spelled.lays {expr : Expr} {before after : Cursor} (h : expr.Spelled before after) :
    Lays [.part (.expr expr)] before after :=
  .part h.pieces h.extent

theorem Expr.Spelled.pieces {expr : Expr} {before after : Cursor} :
    expr.Spelled before after → Lays expr.pieces before after
  | .literal h => h.written.2.lays
  | .variable h => h.takes_name.lays
  | .assign hname hequal hvalue =>
      hname.takes_name.lays.cons (hequal.lays.cons hvalue.lays)
  | .group hopening hinner hclosing =>
      hopening.lays.cons (hinner.lays.cons hclosing.lays)
  | .unary hop hoperand _ => (hop.lays (UnaryOp.kind_isMark _)).cons hoperand.lays
  | .binary hleft hop hright _ _ =>
      hleft.lays.cons ((hop.lays (BinaryOp.kind_isMark _)).cons hright.lays)
  | .call hcallee hopening hargs hclosing _ _ =>
      hcallee.lays.cons (listed_lays_between hopening
        (Listed.lays .expr (Expr.listed_lays hargs)) hclosing)
  | .function hword hdecl => hdecl.lays hword

theorem Expr.listed_lays {exprs : List Expr} {before after : Cursor} :
    Listed Expr.Spelled exprs before after →
      Listed (fun expr s t => Lays [.part (.expr expr)] s t) exprs before after
  | .nil => .nil
  | .one h => .one h.lays
  | .more h hcomma hrest => .more h.lays hcomma (Expr.listed_lays hrest)

theorem Expr.behind_lays {expr : Option Expr} {before after : Cursor} :
    Behind .equal Expr.Spelled expr before after →
      Behind .equal (fun expr s t => Lays [.part (.expr expr)] s t) expr before after
  | .absent h => .absent h
  | .present hmark h => .present hmark h.lays

theorem FnDecl.Spelled.lays {decl : FnDecl} {word : Token} {before middle after : Cursor} :
    decl.Spelled word.span middle after → Passes .fnWord word before middle →
      Lays [.part (.function decl)] before after
  | .intro hname hopening hparams hclosing hresult (.intro hbrace hbody hend) _, hword => by
      have hparams := Listed.lays .param (hparams.imp fun h => h.lays)
      have hlisted := listed_lays_between hopening hparams hclosing
      have hresult := Behind.lays .written (TypeExpr.behind_lays hresult)
      have hbody := hbrace.lays.cons ((Stmt.sequence_lays hbody).append hend.lays)
      -- a made-up name is no symbol, so it is no piece either
      have hname : Lays _ _ _ := hname.takes.lays
      rw [apply_ite (List.map Piece.symbol)] at hname
      have hpieces := hword.lays.cons (hname.append (hlisted.append (hresult.append hbody)))
      refine .part hpieces fun _ => ?_
      rw [hword.peek]
      rfl

theorem Block.Spelled.lays {block : Block} {before after : Cursor} :
    block.Spelled before after → Lays [.part (.block block)] before after
  | .intro hopening hstatements hclosing => by
      have hinside := Stmt.sequence_lays hstatements
      refine .part (hopening.lays.cons (hinside.append hclosing.lays)) fun _ => ?_
      rw [hopening.peek]
      rfl

theorem Stmt.Spelled.lays {stmt : Stmt} {before after : Cursor} (h : stmt.Spelled before after) :
    Lays [.part (.stmt stmt)] before after :=
  .part h.pieces h.extent

theorem Stmt.Spelled.pieces {stmt : Stmt} {before after : Cursor} :
    stmt.Spelled before after → Lays stmt.pieces before after
  | .expression hexpr _ _ => hexpr.lays
  | .binding hword hname hdeclared hinit _ =>
      hword.lays.cons (hname.takes_name.lays.cons
        ((Behind.lays .written (TypeExpr.behind_lays hdeclared)).append
          (Behind.lays .expr (Expr.behind_lays hinit))))
  | .block hblock => hblock.lays
  | .conditional hword hcondition hthen hotherwise _ =>
      hword.lays.cons (hcondition.lays.cons
        (hthen.lays.cons (Behind.lays .stmt (Stmt.behind_lays hotherwise))))
  | .loop hword hcondition hbody => hword.lays.cons (hcondition.lays.cons hbody.lays)
  | .function hword hdecl => hdecl.lays hword
  | .finish hword _ => hword.lays
  | .ret hword hvalue _ => hword.lays.cons hvalue.lays

theorem Stmt.behind_lays {stmt : Option Stmt} {before after : Cursor} :
    Behind .elseWord Stmt.Spelled stmt before after →
      Behind .elseWord (fun stmt s t => Lays [.part (.stmt stmt)] s t) stmt before after
  | .absent h => .absent h
  | .present hmark h => .present hmark h.lays

theorem Stmt.sequence_lays {stmts : List Stmt} {before after : Cursor} :
    Sequence Stmt.Spelled stmts before after → Lays (Piece.statements stmts) before after
  | .nil => .nil _
  | .cons hstmt hrest => hstmt.lays.cons (Stmt.sequence_lays hrest)

end

/-- The tokens of a phrase stand together and are what the phrase is written out as. Its span runs
over them, and the phrases below it lie in it, one behind the other. -/
structure Phrase.Exact (phrase : Phrase) (tokens : List Token) : Prop where
  own : ∃ front own back, tokens = front ++ (own ++ back) ∧
    own.map Token.symbol = phrase.symbols ∧ Covered phrase.pieces own ∧ phrase.span.RunsOver own
  inside : ∀ part ∈ phrase.parts, part.span.Inside phrase.span
  apart : phrase.parts.Pairwise fun first second => first.span.stop ≤ second.span.offset

/-- Tokens in the order of the text make a phrase exact that has some of them to itself. -/
theorem Covered.exact {phrase : Phrase} {tokens front own back : List Token}
    (hsplit : tokens = front ++ (own ++ back)) (hown : Covered phrase.pieces own)
    (hspan : phrase.span.RunsOver own)
    (hordered : tokens.Pairwise fun first second => first.span.stop ≤ second.span.offset) :
    phrase.Exact tokens := by
  have hownOrdered : own.Pairwise fun first second => first.span.stop ≤ second.span.offset := by
    rw [hsplit, List.pairwise_append, List.pairwise_append] at hordered
    exact hordered.2.1.1
  constructor
  case own =>
    refine ⟨front, own, back, hsplit, ?_, hown, hspan⟩
    rw [hown.symbols, phrase.symbols_pieces]
  case inside =>
    intro part hpart
    obtain ⟨before, inner, after, hinner, _, hpartSpan⟩ := hown.exists_own hpart
    exact hpartSpan.inside hspan hownOrdered (by simp [hinner])
  case apart => exact hown.apart hownOrdered

namespace Program

variable {source : String} {unnamed : Nat} {program : Program}

theorem Spelled.covered {tokens : List Token} {after : Nat}
    (h : program.Spelled tokens unnamed after)
    (hordered : (Cursor.ofTokens tokens unnamed).Ordered) :
    Covered program.pieces (Token.inside tokens) := by
  obtain ⟨last, hspelled, hrest, _⟩ := h
  obtain ⟨own, huses, hcovered⟩ := Stmt.sequence_lays hspelled hordered
  have hall : Token.inside tokens = own ++ last.rest := huses.rest
  rw [hrest, List.append_nil] at hall
  exact hall ▸ hcovered

/-- The tokens tell their places in the source text, and the phrases of the program have the
spans of their tokens. -/
structure Exact (program : Program) (source : String) (tokens : List Token) : Prop where
  scanned : Token.scan source = .ok tokens
  places : Token.Exact source tokens
  covered : Covered program.pieces (Token.inside tokens)
  /-- The statements of the program stand one behind the other. -/
  apart : (Piece.parts program.pieces).Pairwise fun first second =>
    first.span.stop ≤ second.span.offset
  phrases : ∀ phrase, program.Contains phrase → phrase.Exact (Token.inside tokens)
  /-- No row of the outline is left out. -/
  outline : program.ShowsAll program.outline

/-- The spans of a program that is read from a source text are exact. -/
theorem spans_exact (h : (ofSource source unnamed).result = .ok program) :
    ∃ tokens, program.Exact source tokens := by
  obtain ⟨tokens, hscan, hparsed⟩ := exists_scanned h
  have hexact := Token.exact_of_layout (Token.scanFrom_eq_ok_iff.mp hscan)
  have hordered : (Cursor.ofTokens tokens unnamed).Ordered :=
    hexact.ordered.sublist (List.takeWhile_sublist _)
  have hcovered := (spelled_of_result hparsed).covered hordered
  refine ⟨tokens, hscan, hexact, hcovered, hcovered.apart hordered, fun phrase hphrase => ?_,
    program.shows_outline⟩
  obtain ⟨front, own, back, hsplit, hown, hspan⟩ := hphrase.exists_own hcovered
  exact hown.exact hsplit hspan hordered

/-- A function that returns a function, and two calls of which one is called by the other. -/
def curried : String :=
  "let add = fn(a: Int) -> fn(Int) -> Int \x7b\n  fn(b) \x7b a + b * 2 \x7d\n\x7d\nadd(1)(2)"

theorem curried_spans : (ofSource curried 0).result = .ok (read curried) ∧
    (read curried).statements.map Stmt.span = [⟨0, 64, 1⟩, ⟨65, 9, 4⟩] ∧
      ∃ tokens, (read curried).Exact curried tokens := by
  have hread : (ofSource curried 0).result = .ok (read curried) :=
    ofSource_read (by decide +kernel)
  exact ⟨hread, by decide +kernel, spans_exact hread⟩

end Program

end Scriptlet
