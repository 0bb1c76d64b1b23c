import Scriptlet.Proofs.Grammar.Written
import Scriptlet.Proofs.Tree.Labels

/-! Tokens that write out a tree which follows the rules of the grammar also spell a tree, and the
two differ in labels only. What comes next decides where each phrase ends. -/

namespace Scriptlet

def Symbol.nextKind : List Symbol → Kind
  | [] => .endOfInput
  | symbol :: _ => symbol.kind

/-- The symbols are all that is left, up to an end. -/
structure Ahead (place : Cursor) (symbols : List Symbol) : Prop where
  symbols : place.symbols = symbols
  finish : place.finish.kind = .endOfInput

section Ahead

variable {place : Cursor} {symbol : Symbol} {rest : List Symbol}

theorem Ahead.peek_kind {symbols : List Symbol} (h : Ahead place symbols) :
    place.peek.kind = Symbol.nextKind symbols := by
  obtain ⟨rfl, hfinish⟩ := h
  obtain ⟨rest, finish, passed, unnamed⟩ := place
  cases rest with
  | nil => exact hfinish
  | cons token rest => exact (Token.kind_symbol token).symm

theorem Ahead.pass (h : Ahead place (symbol :: rest)) : ∃ token after,
    Passes symbol.kind token place after ∧ token.symbol = symbol ∧ Ahead after rest := by
  obtain ⟨hsymbols, hfinish⟩ := h
  obtain ⟨tokens, finish, passed, unnamed⟩ := place
  cases tokens with
  | nil => simp [Cursor.symbols] at hsymbols
  | cons token tokens =>
      simp only [Cursor.symbols, List.map_cons, List.cons.injEq] at hsymbols
      obtain ⟨rfl, rfl⟩ := hsymbols
      exact ⟨token, _, .intro (Token.kind_symbol token).symm, rfl, rfl, hfinish⟩

theorem Ahead.mark {kind : Kind} (h : Ahead place (.mark kind :: rest)) :
    ∃ token after, Passes kind token place after ∧ Ahead after rest := by
  obtain ⟨token, after, hpass, _, hafter⟩ := h.pass
  exact ⟨token, after, hpass, hafter⟩

theorem Ahead.name {text : String} (h : Ahead place (.name text :: rest)) :
    ∃ token after, Passes .identifier token place after ∧ token.lexeme = text ∧
      Ahead after rest := by
  obtain ⟨token, after, hpass, hsymbol, hafter⟩ := h.pass
  have hkind : token.kind = .identifier := hpass.peek ▸ hpass.peek_kind
  simp only [Token.symbol, hkind, Symbol.name.injEq] at hsymbol
  exact ⟨token, after, hpass, hsymbol, hafter⟩

theorem Token.payload_of_number {token : Token} {value : Literal}
    (h : token.symbol = .number value) :
    ∃ payload, token.payload = some (.number payload) ∧ Literal.number payload = value := by
  unfold symbol at h
  split at h
  · simp at h
  · exact ⟨_, ‹_›, Symbol.number.inj h⟩
  · simp at h
  · simp at h

theorem Token.payload_of_text {token : Token} {value : String} (h : token.symbol = .text value) :
    token.payload = some (.text value) := by
  unfold symbol at h
  split at h
  · simp at h
  · simp at h
  · rwa [← Symbol.text.inj h]
  · simp at h

theorem Ahead.literal {value : Literal} (h : Ahead place (value.symbol :: rest)) :
    ∃ token after, value.Spelled token place after ∧ Ahead after rest := by
  obtain ⟨token, after, hpass, hsymbol, hafter⟩ := h.pass
  refine ⟨token, after, ?_, hafter⟩
  cases value with
  | text value => exact .text hpass (Token.payload_of_text hsymbol)
  | bool value =>
      cases value with
      | true => exact .yes hpass
      | false => exact .no hpass
  | _ =>
      obtain ⟨payload, hpayload, hvalue⟩ := Token.payload_of_number hsymbol
      exact hvalue ▸ .number hpass hpayload

end Ahead

/-- Wherever the symbols are ahead and something fitting comes next, something is spelled that is
the same without its labels. -/
def Readable {α : Type} (spelled : α → Cursor → Cursor → Prop) (bare : α → α)
    (follow : Kind → Prop) (symbols : List Symbol) (a : α) : Prop :=
  ∀ place rest, Ahead place (symbols ++ rest) → follow (Symbol.nextKind rest) →
    ∃ read after, spelled read place after ∧ Ahead after rest ∧ bare read = bare a

section Combinators

variable {α : Type} {spelled : α → Cursor → Cursor → Prop} {bare : α → α} {follow : Kind → Prop}
  {symbols : α → List Symbol}

theorem Readable.mono {text : List Symbol} {a : α} {fewer : Kind → Prop}
    (h : Readable spelled bare follow text a) (himp : ∀ kind, fewer kind → follow kind) :
    Readable spelled bare fewer text a :=
  fun place rest hahead hnext => h place rest hahead (himp _ hnext)

theorem listed_readable (hcomma : follow .comma) : {items : List α} →
    (∀ a ∈ items, Readable spelled bare follow (symbols a) a) →
    Readable (Listed spelled) (List.map bare) follow (Symbol.separated (items.map symbols)) items
  | [], _ => fun place rest h _ => ⟨[], place, .nil, h, rfl⟩
  | [a], hitems => fun place rest h hnext => by
      obtain ⟨read, after, hread, hafter, hbare⟩ := hitems a (by simp) place rest h hnext
      exact ⟨[read], after, .one hread, hafter, by simp [hbare]⟩
  | a :: next :: others, hitems => fun place rest h hnext => by
      rw [List.forall_mem_cons] at hitems
      simp only [List.map_cons, Symbol.separated, List.append_assoc, List.cons_append] at h
      obtain ⟨read, first, hread, h, hbare⟩ := hitems.1 place _ h hcomma
      obtain ⟨comma, second, hpass, h⟩ := h.mark
      obtain ⟨reads, after, hreads, h, hbares⟩ :=
        listed_readable hcomma hitems.2 second rest h hnext
      obtain ⟨again, others', rfl⟩ : ∃ again others', reads = again :: others' := by
        cases reads with
        | nil => simp at hbares
        | cons again others' => exact ⟨_, _, rfl⟩
      exact ⟨read :: again :: others', after, .more hread hpass hreads, h, by
        rw [List.map_cons, hbare, hbares, ← List.map_cons]⟩

theorem behind_readable (mark : Kind) {value : Option α}
    (hvalue : ∀ a ∈ value, Readable spelled bare follow (symbols a) a) :
    Readable (Behind mark spelled) (Option.map bare) (fun kind => kind ≠ mark ∧ follow kind)
      (Symbol.after mark (value.map symbols)) value := by
  intro place rest h hnext
  cases value with
  | none => exact ⟨none, place, .absent (h.peek_kind ▸ hnext.1), h, rfl⟩
  | some a =>
      obtain ⟨token, middle, hmark, h⟩ := h.mark
      obtain ⟨read, after, hread, h, hbare⟩ := hvalue a rfl middle rest h hnext.2
      exact ⟨some read, after, .present hmark hread, h, by simp [hbare]⟩

end Combinators

theorem Symbol.nextKind_after {mark kind : Kind} {value : Option (List Symbol)}
    {rest : List Symbol} (hmark : mark ≠ kind) (hrest : nextKind rest ≠ kind) :
    nextKind (after mark value ++ rest) ≠ kind := by
  cases value with
  | none => exact hrest
  | some piece => exact hmark

mutual

theorem TypeExpr.readable : (written : TypeExpr) →
    Readable TypeExpr.Spelled (relabel .bare) (· ≠ .arrow) written.symbols written
  | .named name _ => fun place rest h _ => by
      obtain ⟨token, after, hpass, rfl, hafter⟩ := h.name
      exact ⟨_, after, .named hpass, hafter, rfl⟩
  | .function params result _ => fun place rest h hnext => by
      have hparams := listed_readable (by decide) (TypeExpr.all_readable params)
      have hresult := behind_readable .arrow (TypeExpr.readable_of_mem result)
      simp only [symbols, Symbol.listed, allSymbols_eq_map, symbols?_eq_map, List.cons_append,
        List.append_assoc, List.nil_append] at h
      obtain ⟨word, first, hword, h⟩ := h.mark
      obtain ⟨opening, second, hopening, h⟩ := h.mark
      obtain ⟨reads, third, hreads, h, hbare⟩ := hparams second _ h nofun
      obtain ⟨closing, fourth, hclosing, h⟩ := h.mark
      obtain ⟨read, after, hread, h, hbare'⟩ := hresult fourth rest h ⟨hnext, hnext⟩
      refine ⟨_, after, .function hword hopening hreads hclosing hread, h, ?_⟩
      simp only [relabel, relabelAll_eq_map, relabel?_eq_map, hbare, hbare']
      rfl

theorem TypeExpr.all_readable : (written : List TypeExpr) → ∀ a ∈ written,
    Readable TypeExpr.Spelled (relabel .bare) (· ≠ .arrow) a.symbols a
  | [] => nofun
  | written :: rest => List.forall_mem_cons.mpr ⟨written.readable, TypeExpr.all_readable rest⟩

theorem TypeExpr.readable_of_mem : (written : Option TypeExpr) → ∀ a ∈ written,
    Readable TypeExpr.Spelled (relabel .bare) (· ≠ .arrow) a.symbols a
  | none => nofun
  | some written => fun a ha => by
      obtain rfl := Option.some.inj ha
      exact written.readable

end

theorem Param.readable (param : Param) :
    Readable Param.Spelled (relabel .bare) (fun kind => kind ≠ .colon ∧ kind ≠ .arrow)
      param.symbols param := by
  intro place rest h hnext
  have hdeclared := behind_readable .colon (TypeExpr.readable_of_mem param.declared)
  obtain ⟨name, middle, hname, hlexeme, h⟩ := h.name
  obtain ⟨read, after, hread, h, hbare⟩ := hdeclared middle rest h hnext
  refine ⟨_, after, .intro hname hread, h, ?_⟩
  simp only [relabel, hlexeme, hbare]
  rfl

theorem Expr.level_relabel (change : Relabel) (expr : Expr) :
    (expr.relabel change).level = expr.level := by
  cases expr <;> rfl

theorem Expr.level_eq_of_relabel {change : Relabel} {read expr : Expr}
    (h : read.relabel change = expr.relabel change) : read.level = expr.level := by
  rw [← level_relabel change read, h, level_relabel]

theorem Symbol.eq_mark_of_kind {symbol : Symbol} {kind : Kind} (h : symbol.kind = kind)
    (hmark : kind ∉ [Kind.identifier, .number, .string]) : symbol = .mark kind := by
  cases symbol with
  | mark other => exact h ▸ rfl
  | name => exact absurd (h ▸ by simp [Symbol.kind]) hmark
  | number => exact absurd (h ▸ by simp [Symbol.kind]) hmark
  | text => exact absurd (h ▸ by simp [Symbol.kind]) hmark

def FnDecl.Headed (decl : FnDecl) (before after : Cursor) : Prop :=
  ∃ word middle, Passes .fnWord word before middle ∧ decl.Spelled word.span middle after

theorem Names.readable {anonymous : Bool} {name : String} {place : Cursor} {rest : List Symbol}
    (h : Ahead place ((if anonymous then [] else [.name name]) ++ rest)) :
    ∃ read after, Names anonymous read place after ∧ Ahead after rest ∧
      Relabel.bare.name anonymous read = Relabel.bare.name anonymous name := by
  cases anonymous with
  | true => exact ⟨_, _, .fresh, ⟨h.symbols, h.finish⟩, rfl⟩
  | false =>
      obtain ⟨token, after, hpass, hlexeme, h⟩ := h.name
      exact ⟨_, after, .own hpass, h, hlexeme⟩

def Stmt.MayStop (stmt : Stmt) (kind : Kind) : Prop :=
  kind ∉ [Kind.colon, .arrow, .equal, .elseWord] ∧ (stmt.endsInExpr → kind.Stops 0) ∧
    (∀ span, stmt = .ret none span → kind = .rightBrace ∨ kind = .endOfInput)

theorem Stmt.mayStop_of_isBranch {stmt : Stmt} {kind : Kind} (h : stmt.isBranch)
    (hkind : kind ∉ [Kind.colon, .arrow, .equal, .elseWord]) : stmt.MayStop kind := by
  refine ⟨hkind, fun hends => ?_, ?_⟩
  · cases stmt <;> simp [isBranch, endsInExpr] at h hends
  · rintro span rfl
    simp [isBranch] at h

theorem Stmt.StopsBefore.mayStop {stmt : Stmt} {stmts : List Stmt} {rest : List Symbol}
    (h : stmt.StopsBefore stmts)
    (hrest : Symbol.nextKind rest = .rightBrace ∨ Symbol.nextKind rest = .endOfInput) :
    stmt.MayStop (Symbol.nextKind (Stmt.allSymbols stmts ++ rest)) := by
  cases stmts with
  | nil =>
      rw [allSymbols, List.nil_append]
      refine ⟨?_, fun _ => ?_, fun _ _ => hrest⟩
      · rcases hrest with hrest | hrest <;> rw [hrest] <;> decide
      · rcases hrest with hrest | hrest <;> rw [hrest] <;> decide
  | cons next others =>
      obtain ⟨first, more, hsymbols, hfirst⟩ := next.symbols_start
      have hkind : Symbol.nextKind (allSymbols (next :: others) ++ rest) = first.kind := by
        rw [allSymbols, hsymbols]
        rfl
      rw [hkind]
      refine ⟨fun hmem => ?_, fun hends => ?_, fun span hspan => absurd (h.1 span hspan) (by simp)⟩
      · have hall : ∀ kind ∈ Kind.stmtStarts,
            kind ∉ [Kind.colon, .arrow, .equal, .elseWord] := by decide
        exact hall _ hfirst hmem
      · obtain ⟨hparen, hminus⟩ := h.2 hends next rfl
        rw [hsymbols, List.head?_cons] at hparen hminus
        exact Kind.stops_of_start hfirst
          (fun heq => hparen (congrArg some (Symbol.eq_mark_of_kind heq (by decide))))
          fun heq => hminus (congrArg some (Symbol.eq_mark_of_kind heq (by decide)))

mutual

theorem Expr.readable : (expr : Expr) → expr.Grammatical →
    Readable Expr.Spelled (Expr.relabel .bare) (fun _ => True) expr.symbols expr
  | .literal value _, _ => fun place rest h _ => by
      obtain ⟨token, after, hvalue, h⟩ := h.literal
      exact ⟨_, after, .literal hvalue, h, rfl⟩
  | .variable name _, _ => fun place rest h _ => by
      obtain ⟨token, after, hpass, hlexeme, h⟩ := h.name
      exact ⟨_, after, .variable hpass, h, by rw [hlexeme]; rfl⟩
  | .assign name value _, hgrammar => fun place rest h _ => by
      obtain ⟨token, first, hname, hlexeme, h⟩ := h.name
      obtain ⟨equal, second, hequal, h⟩ := h.mark
      obtain ⟨read, after, hread, h, hbare⟩ := value.readable hgrammar second rest h trivial
      refine ⟨_, after, .assign hname hequal hread, h, ?_⟩
      simp only [Expr.relabel, hlexeme, hbare]
      rfl
  | .group inner _, hgrammar => fun place rest h _ => by
      simp only [Expr.symbols, List.cons_append, List.append_assoc, List.nil_append] at h
      obtain ⟨opening, first, hopening, h⟩ := h.mark
      obtain ⟨read, second, hread, h, hbare⟩ := inner.readable hgrammar first _ h trivial
      obtain ⟨closing, after, hclosing, h⟩ := h.mark
      refine ⟨_, after, .group hopening hread hclosing, h, ?_⟩
      simp only [Expr.relabel, hbare]
      rfl
  | .unary op operand _, hgrammar => fun place rest h _ => by
      obtain ⟨token, middle, hop, h⟩ := h.mark
      obtain ⟨read, after, hread, h, hbare⟩ := operand.readable hgrammar.1 middle rest h trivial
      refine ⟨_, after, .unary hop hread (Expr.level_eq_of_relabel hbare ▸ hgrammar.2), h, ?_⟩
      simp only [Expr.relabel, hbare]
      rfl
  | .binary op left right _, hgrammar => fun place rest h _ => by
      obtain ⟨hleft, hright, hlevel, hlevel'⟩ := hgrammar
      simp only [Expr.symbols, List.cons_append, List.append_assoc] at h
      obtain ⟨read, first, hread, h, hbare⟩ := left.readable hleft place _ h trivial
      obtain ⟨token, second, hop, h⟩ := h.mark
      obtain ⟨read', after, hread', h, hbare'⟩ := right.readable hright second rest h trivial
      refine ⟨_, after, .binary hread hop hread' (Expr.level_eq_of_relabel hbare ▸ hlevel)
        (Expr.level_eq_of_relabel hbare' ▸ hlevel'), h, ?_⟩
      simp only [Expr.relabel, hbare, hbare']
      rfl
  | .call callee args _, hgrammar => fun place rest h _ => by
      obtain ⟨hcallee, hlevel, hargs, hcount⟩ := hgrammar
      have hlisted := listed_readable trivial (Expr.all_readable args hargs)
      simp only [Expr.symbols, Symbol.listed, Expr.allSymbols_eq_map, List.cons_append,
        List.append_assoc, List.nil_append] at h
      obtain ⟨read, first, hread, h, hbare⟩ := callee.readable hcallee place _ h trivial
      obtain ⟨opening, second, hopening, h⟩ := h.mark
      obtain ⟨reads, third, hreads, h, hbares⟩ := hlisted second _ h trivial
      obtain ⟨closing, after, hclosing, h⟩ := h.mark
      have hlength : reads.length = args.length := by simpa using congrArg List.length hbares
      refine ⟨_, after, .call hread hopening hreads hclosing
        (Expr.level_eq_of_relabel hbare ▸ hlevel) (hlength ▸ hcount), h, ?_⟩
      simp only [Expr.relabel, Expr.relabelAll_eq_map, hbare, hbares]
      rfl
  | .function decl _, hgrammar => fun place rest h _ => by
      obtain ⟨read, after, ⟨word, middle, hword, hread⟩, h, hbare⟩ :=
        decl.readable hgrammar place rest h trivial
      refine ⟨_, after, .function hword hread, h, ?_⟩
      simp only [Expr.relabel, hbare]
      rfl

theorem Expr.all_readable : (exprs : List Expr) → Expr.AllGrammatical exprs → ∀ a ∈ exprs,
    Readable Expr.Spelled (Expr.relabel .bare) (fun _ => True) a.symbols a
  | [], _ => nofun
  | expr :: rest, hgrammar => List.forall_mem_cons.mpr
      ⟨expr.readable hgrammar.1, Expr.all_readable rest hgrammar.2⟩

theorem Expr.readable_of_mem : (expr : Option Expr) → (∀ a ∈ expr, a.Grammatical) → ∀ a ∈ expr,
    Readable Expr.Spelled (Expr.relabel .bare) (fun _ => True) a.symbols a
  | none, _ => nofun
  | some expr, hgrammar => fun a ha => by
      obtain rfl := Option.some.inj ha
      exact expr.readable (hgrammar expr rfl)

theorem FnDecl.readable : (decl : FnDecl) → decl.Grammatical →
    Readable FnDecl.Headed (FnDecl.relabel .bare) (fun _ => True) decl.symbols decl
  | ⟨name, anonymous, params, result, body, _⟩, hgrammar => fun place rest h _ => by
      obtain ⟨hcount, hbody⟩ := hgrammar
      have hparams := listed_readable ⟨nofun, nofun⟩
        fun param (_ : param ∈ params) => param.readable
      have hresult := behind_readable .arrow (TypeExpr.readable_of_mem result)
      simp only [FnDecl.symbols, Symbol.listed, Symbol.braced, List.cons_append,
        List.append_assoc, List.nil_append] at h
      obtain ⟨word, middle, hword, h⟩ := h.mark
      obtain ⟨read, first, hname, h, hbareName⟩ := Names.readable h
      obtain ⟨opening, second, hopening, h⟩ := h.mark
      obtain ⟨reads, third, hreads, h, hbares⟩ := hparams second _ h ⟨nofun, nofun⟩
      obtain ⟨closing, fourth, hclosing, h⟩ := h.mark
      obtain ⟨result', fifth, hresult', h, hbareResult⟩ := hresult fourth _ h ⟨nofun, nofun⟩
      obtain ⟨brace, sixth, hbrace, h⟩ := h.mark
      obtain ⟨stmts, seventh, hstmts, h, hbareBody⟩ :=
        Stmt.all_readable body hbody sixth _ h (.inl rfl)
      obtain ⟨brace', after, hbrace', h⟩ := h.mark
      have hlength : reads.length = params.length := by simpa using congrArg List.length hbares
      refine ⟨_, after, ⟨word, middle, hword, .intro hname hopening hreads hclosing hresult'
        (.intro hbrace hstmts hbrace') (hlength ▸ hcount)⟩, h, ?_⟩
      simp only [FnDecl.relabel, Stmt.relabelAll_eq_map, hbares, hbareResult, hbareBody,
        hbareName]
      rfl

theorem Block.readable : (block : Block) → block.Grammatical →
    Readable Block.Spelled (Block.relabel .bare) (fun _ => True) block.symbols block
  | ⟨statements, _⟩, hgrammar => fun place rest h _ => by
      simp only [Block.symbols, Symbol.braced, List.cons_append, List.append_assoc,
        List.nil_append] at h
      obtain ⟨opening, first, hopening, h⟩ := h.mark
      obtain ⟨reads, second, hreads, h, hbares⟩ :=
        Stmt.all_readable statements hgrammar first _ h (.inl rfl)
      obtain ⟨closing, after, hclosing, h⟩ := h.mark
      refine ⟨_, after, .intro hopening hreads hclosing, h, ?_⟩
      simp only [Block.relabel, Stmt.relabelAll_eq_map, hbares]
      rfl

theorem Stmt.readable : (stmt : Stmt) → stmt.Grammatical →
    Readable Stmt.Spelled (Stmt.relabel .bare) stmt.MayStop stmt.symbols stmt
  | .expression expr, hgrammar => fun place rest h hnext => by
      obtain ⟨hexpr, hfn⟩ := hgrammar
      have hstart : place.peek.kind ≠ .fnWord := by
        obtain ⟨first, more, hsymbols, _⟩ := expr.symbols_start
        rw [h.peek_kind, Stmt.symbols, hsymbols]
        rw [hsymbols] at hfn
        exact fun heq => hfn (congrArg some (Symbol.eq_mark_of_kind heq (by decide)))
      obtain ⟨read, after, hread, h, hbare⟩ := expr.readable hexpr place rest h trivial
      refine ⟨_, after, .expression hread hstart (h.peek_kind ▸ hnext.2.1 rfl), h, ?_⟩
      simp only [Stmt.relabel, hbare]
  | .binding name declared init _, hgrammar => fun place rest h hnext => by
      have hdeclared := behind_readable .colon (TypeExpr.readable_of_mem declared)
      have hinit := behind_readable .equal
        (Expr.readable_of_mem init (Stmt.grammatical_binding.mp hgrammar))
      obtain ⟨hfollow, hstop, _⟩ := hnext
      simp only [List.mem_cons, List.not_mem_nil, or_false, not_or] at hfollow
      obtain ⟨hcolon, harrow, hequal, _⟩ := hfollow
      simp only [Stmt.symbols, Expr.symbols?_eq_map, List.cons_append, List.append_assoc] at h
      obtain ⟨word, first, hword, h⟩ := h.mark
      obtain ⟨token, second, hname, hlexeme, h⟩ := h.name
      obtain ⟨declared', third, hdeclared', h, hbare⟩ := hdeclared second _ h
        ⟨Symbol.nextKind_after (by decide) hcolon, Symbol.nextKind_after (by decide) harrow⟩
      obtain ⟨init', after, hinit', h, hbare'⟩ := hinit third rest h ⟨hequal, trivial⟩
      have hsome : init'.isSome = init.isSome := by simpa using congrArg Option.isSome hbare'
      refine ⟨_, after, .binding hword hname hdeclared' hinit' fun hgiven => ?_, h, ?_⟩
      · rw [h.peek_kind]
        refine hstop ?_
        obtain ⟨init, rfl⟩ := Option.isSome_iff_exists.mp (hsome ▸ hgiven)
        rfl
      · simp only [Stmt.relabel, Expr.relabel?_eq_map, hlexeme, hbare, hbare']
        rfl
  | .block block, hgrammar => fun place rest h _ => by
      obtain ⟨read, after, hread, h, hbare⟩ := block.readable hgrammar place rest h trivial
      refine ⟨_, after, .block hread, h, ?_⟩
      simp only [Stmt.relabel, hbare]
  | .conditional condition thenBlock otherwise _, hgrammar => fun place rest h hnext => by
      obtain ⟨hcondition, hthen, hbranch⟩ := Stmt.grammatical_conditional.mp hgrammar
      have hotherwise := behind_readable .elseWord (Stmt.readable_of_mem otherwise hbranch)
      have hfollow := hnext.1
      simp only [Stmt.symbols, Stmt.symbols?_eq_map, List.cons_append, List.append_assoc] at h
      obtain ⟨word, first, hword, h⟩ := h.mark
      obtain ⟨read, second, hread, h, hbare⟩ := condition.readable hcondition first _ h trivial
      obtain ⟨read', third, hread', h, hbare'⟩ := thenBlock.readable hthen second _ h trivial
      obtain ⟨branch, after, helse, h, hbareElse⟩ := hotherwise third rest h
        ⟨fun heq => absurd hfollow (by rw [heq]; decide), hfollow⟩
      refine ⟨_, after, .conditional hword hread hread' helse fun stmt hstmt => ?_, h, ?_⟩
      · obtain rfl : branch = some stmt := hstmt
        obtain ⟨written, rfl, hsame⟩ := Option.map_eq_some_iff.mp hbareElse.symm
        rw [← Stmt.isBranch_relabel .bare, ← hsame, Stmt.isBranch_relabel]
        exact (hbranch written rfl).2
      · simp only [Stmt.relabel, Stmt.relabel?_eq_map, hbare, hbare', hbareElse]
        rfl
  | .loop condition body _, hgrammar => fun place rest h hnext => by
      simp only [Stmt.symbols, List.cons_append, List.append_assoc] at h
      obtain ⟨word, first, hword, h⟩ := h.mark
      obtain ⟨read, second, hread, h, hbare⟩ := condition.readable hgrammar.1 first _ h trivial
      obtain ⟨read', after, hread', h, hbare'⟩ := body.readable hgrammar.2 second rest h trivial
      refine ⟨_, after, .loop hword hread hread', h, ?_⟩
      simp only [Stmt.relabel, hbare, hbare']
      rfl
  | .function decl, hgrammar => fun place rest h _ => by
      obtain ⟨read, after, ⟨word, middle, hword, hread⟩, h, hbare⟩ :=
        decl.readable hgrammar place rest h trivial
      refine ⟨_, after, .function hword hread, h, ?_⟩
      simp only [Stmt.relabel, hbare]
  | .ret none span, _ => fun place rest h hnext => by
      obtain ⟨word, after, hword, h⟩ := h.mark
      exact ⟨_, after, .finish hword (h.peek_kind ▸ hnext.2.2 span rfl), h, rfl⟩
  | .ret (some value) _, hgrammar => fun place rest h hnext => by
      obtain ⟨word, middle, hword, h⟩ := h.mark
      obtain ⟨read, after, hread, h, hbare⟩ := value.readable hgrammar middle rest h trivial
      refine ⟨_, after, .ret hword hread (h.peek_kind ▸ hnext.2.1 rfl), h, ?_⟩
      simp only [Stmt.relabel, Expr.relabel?_eq_map, Option.map_some, hbare]
      rfl

theorem Stmt.readable_of_mem : (stmt : Option Stmt) →
    (∀ a ∈ stmt, a.Grammatical ∧ a.isBranch) → ∀ a ∈ stmt,
    Readable Stmt.Spelled (Stmt.relabel .bare)
      (· ∉ [Kind.colon, .arrow, .equal, .elseWord]) a.symbols a
  | none, _ => nofun
  | some stmt, hgrammar => fun a ha => by
      obtain rfl := Option.some.inj ha
      obtain ⟨hstmt, hbranch⟩ := hgrammar stmt rfl
      exact (stmt.readable hstmt).mono fun kind hkind => Stmt.mayStop_of_isBranch hbranch hkind

theorem Stmt.all_readable : (stmts : List Stmt) → Stmt.AllGrammatical stmts →
    Readable (Sequence Stmt.Spelled) (List.map (Stmt.relabel .bare))
      (fun kind => kind = .rightBrace ∨ kind = .endOfInput) (Stmt.allSymbols stmts) stmts
  | [], _ => fun place rest h _ => ⟨[], place, .nil, h, rfl⟩
  | stmt :: others, hgrammar => fun place rest h hnext => by
      obtain ⟨hstmt, hstops, hothers⟩ := hgrammar
      simp only [Stmt.allSymbols, List.append_assoc] at h
      obtain ⟨read, middle, hread, h, hbare⟩ :=
        stmt.readable hstmt place _ h (hstops.mayStop hnext)
      obtain ⟨reads, after, hreads, h, hbares⟩ :=
        Stmt.all_readable others hothers middle rest h hnext
      exact ⟨_, after, .cons hread hreads, h, by simp only [List.map_cons, hbare, hbares]⟩

end

end Scriptlet
