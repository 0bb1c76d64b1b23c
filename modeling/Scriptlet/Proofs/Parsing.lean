import Mathlib.Data.List.TakeWhile
import Scriptlet.Proofs.Grammar.Readable
import Scriptlet.Proofs.Grammar.Writable
import Scriptlet.Proofs.Parsing.Complete
import Scriptlet.Proofs.Parsing.Sound

/-! Parsing decides the grammar: a list of tokens is parsed as the one program that it spells, and
is rejected if it spells none. So writing out what was parsed gives the tokens again, and parsing
what was written out gives the program again. -/

namespace Scriptlet

/-- The tokens before the first end of input. -/
def Token.inside (tokens : List Token) : List Token :=
  tokens.takeWhile (·.kind != .endOfInput)

namespace Cursor

variable {tokens : List Token} {unnamed : Nat}

theorem finish_ofTokens (tokens : List Token) (unnamed : Nat) :
    (ofTokens tokens unnamed).finish.kind = .endOfInput := by
  unfold ofTokens
  cases hfind : tokens.find? (·.kind == .endOfInput) with
  | none =>
      unfold finishOf
      cases tokens.getLast? <;> rfl
  | some token => simpa using List.find?_some hfind

theorem kind_ne_of_mem {token : Token} (h : token ∈ Token.inside tokens) :
    token.kind ≠ .endOfInput := by
  simpa using List.mem_takeWhile_imp h

theorem rest_eq_nil {symbols : List Symbol} {last : Cursor}
    (h : Takes symbols (ofTokens tokens unnamed) last) (hpeek : last.peek.kind = .endOfInput) :
    last.rest = [] := by
  cases hrest : last.rest with
  | nil => rfl
  | cons token rest =>
      have hmem : token.symbol ∈ (Token.inside tokens).map Token.symbol := by
        have hsymbols : (Token.inside tokens).map Token.symbol = symbols ++ last.symbols :=
          h.symbols
        simp [hsymbols, Cursor.symbols, hrest]
      obtain ⟨same, hsame, hsymbol⟩ := List.mem_map.mp hmem
      have hkind : same.kind = token.kind := by
        rw [← Token.kind_symbol, hsymbol, Token.kind_symbol]
      rw [peek, hrest] at hpeek
      exact absurd (hkind.trans hpeek) (kind_ne_of_mem hsame)

end Cursor

namespace Program

variable {tokens : List Token} {unnamed after : Nat} {program : Program}

/-- The tokens spell the program, and its functions without a name get their numbers from
`unnamed` on, up to `after`. -/
def Spelled (program : Program) (tokens : List Token) (unnamed after : Nat) : Prop :=
  ∃ last, Sequence Stmt.Spelled program.statements (.ofTokens tokens unnamed) last ∧
    last.rest = [] ∧ last.unnamed = after

theorem spelled_of_ofTokens (h : ofTokens tokens unnamed = ⟨.ok program, after⟩) :
    program.Spelled tokens unnamed after := by
  unfold ofTokens at h
  simp only at h
  split at h
  · rename_i statements last hparsed
    simp only [Parsed.mk.injEq, Except.ok.injEq] at h
    obtain ⟨rfl, rfl⟩ := h
    obtain ⟨_, hspelled, hends⟩ := Parse.finds_many (Parse.spelledAt _).statement _ _
      (Cursor.finish_ofTokens tokens unnamed) _ _ hparsed
    refine ⟨last, hspelled, ?_, rfl⟩
    exact Cursor.rest_eq_nil (Stmt.sequence_written hspelled).2 (by simpa using hends)
  · simp at h

theorem ofTokens_of_spelled (h : program.Spelled tokens unnamed after) :
    ofTokens tokens unnamed = ⟨.ok program, after⟩ := by
  obtain ⟨last, hspelled, hrest, rfl⟩ := h
  have hfinish := (Stmt.sequence_written hspelled).2.finish
  have hlast : last.peek.kind = .endOfInput := by
    rw [Cursor.peek, hrest]
    exact hfinish ▸ Cursor.finish_ofTokens tokens unnamed
  have hleft : (Cursor.ofTokens tokens unnamed).left ≤ tokens.length :=
    (List.takeWhile_sublist _).length_le
  have hgives : (Parse.many (· == .endOfInput) (Parse.statement (parseFuel tokens))
      (parseFuel tokens)).Gives (.ofTokens tokens unnamed) program.statements last :=
    Parse.gives_statements (Parse.statements_stand hspelled) (by simp [hlast]) (by decide) (by
      rw [parseFuel]
      omega)
  unfold Parse.Gives at hgives
  simp only [ofTokens, hgives]

theorem spelled_of_result (h : (ofTokens tokens unnamed).result = .ok program) :
    program.Spelled tokens unnamed (ofTokens tokens unnamed).unnamed :=
  spelled_of_ofTokens (by rw [← h])

theorem Spelled.written (h : program.Spelled tokens unnamed after) :
    program.Grammatical ∧ (Token.inside tokens).map Token.symbol = program.symbols := by
  obtain ⟨last, hspelled, hrest, _⟩ := h
  obtain ⟨hgrammar, htakes⟩ := Stmt.sequence_written hspelled
  have hsymbols : (Token.inside tokens).map Token.symbol = program.symbols ++ last.symbols :=
    htakes.symbols
  exact ⟨hgrammar, by simpa [Cursor.symbols, hrest] using hsymbols⟩

/-- A program that was parsed follows the rules of the grammar, and writing it out gives the
tokens that were parsed: the same kinds, names, numbers and texts in the same order. -/
theorem written_of_parsed (h : (ofTokens tokens unnamed).result = .ok program) :
    (Token.inside tokens).map Token.symbol = program.symbols ∧
      (Token.inside tokens).map Token.kind = program.symbols.map Symbol.kind ∧
        program.Grammatical := by
  obtain ⟨hgrammar, hsymbols⟩ := (spelled_of_result h).written
  refine ⟨hsymbols, ?_, hgrammar⟩
  rw [← hsymbols, List.map_map]
  exact List.map_congr_left fun token _ => (Token.kind_symbol token).symm

/-- A call, and behind the end of input a token that is not read. -/
def callTokens : List Token :=
  [⟨.identifier, "f", none, ⟨0, 1, 1⟩⟩, ⟨.leftParen, "(", none, ⟨1, 1, 1⟩⟩,
    ⟨.identifier, "x", none, ⟨2, 1, 1⟩⟩, ⟨.rightParen, ")", none, ⟨3, 1, 1⟩⟩,
    .endOfInput ⟨4, 0, 1⟩, ⟨.rightBrace, "\x7d", none, ⟨5, 1, 1⟩⟩]

def callProgram : Program :=
  ⟨[.expression (.call (.variable "f" ⟨⟨0, 1, 1⟩, none⟩) [.variable "x" ⟨⟨2, 1, 1⟩, none⟩]
    ⟨⟨0, 4, 1⟩, none⟩)]⟩

theorem callTokens_written : (ofTokens callTokens 0).result = .ok callProgram ∧
    (Token.inside callTokens).map Token.symbol = callProgram.symbols ∧
      (Token.inside callTokens).map Token.kind = callProgram.symbols.map Symbol.kind ∧
        callProgram.Grammatical :=
  ⟨rfl, written_of_parsed (show (ofTokens callTokens 0).result = .ok callProgram from rfl)⟩

/-- Every program that follows the rules of the grammar can be written out with tokens. However
that is done, parsing the tokens gives the program again, but for its labels. -/
theorem parsed_of_written (h : program.Grammatical) (unnamed : Nat) :
    (∃ tokens, (Token.inside tokens).map Token.symbol = program.symbols) ∧
      ∀ tokens, (Token.inside tokens).map Token.symbol = program.symbols →
        ∃ parsed, (ofTokens tokens unnamed).result = .ok parsed ∧
          parsed.relabel .bare = program.relabel .bare := by
  constructor
  · obtain ⟨tokens, hinside, htokens⟩ := Symbol.exists_tokens (Stmt.all_writable _ h)
    have hall : Token.inside tokens = tokens :=
      List.takeWhile_eq_self_iff.mpr (by simpa using hinside)
    exact ⟨tokens, by rw [hall]; exact htokens⟩
  · intro tokens htokens
    have hahead : Ahead (.ofTokens tokens unnamed) (Stmt.allSymbols program.statements ++ []) :=
      ⟨by rw [List.append_nil]; exact htokens, Cursor.finish_ofTokens tokens unnamed⟩
    obtain ⟨statements, last, hspelled, hlast, hbare⟩ :=
      Stmt.all_readable program.statements h _ [] hahead (.inr rfl)
    have hparsed : ofTokens tokens unnamed = ⟨.ok ⟨statements⟩, last.unnamed⟩ :=
      ofTokens_of_spelled ⟨last, hspelled, List.map_eq_nil_iff.mp hlast.symbols, rfl⟩
    exact ⟨⟨statements⟩, by rw [hparsed], by rw [relabel, relabel, hbare]⟩

/-- A function without a name that returns nothing, and a difference that leans to the left. -/
def leaningProgram : Program :=
  let nowhere : Mark := ⟨⟨0, 0, 1⟩, none⟩
  ⟨[.binding "f" none (some (.function
      ⟨"", true, [⟨"x", none, nowhere.span⟩], none, [.ret none nowhere.span], nowhere⟩ nowhere))
      nowhere,
    .expression (.binary .subtract
      (.binary .subtract (.variable "a" nowhere) (.variable "b" nowhere) nowhere)
      (.variable "c" nowhere) nowhere)]⟩

theorem leaningProgram_parsed : leaningProgram.Grammatical ∧
    (∃ tokens, (Token.inside tokens).map Token.symbol = leaningProgram.symbols) ∧
      ∀ tokens, (Token.inside tokens).map Token.symbol = leaningProgram.symbols →
        ∃ parsed, (ofTokens tokens 0).result = .ok parsed ∧
          parsed.relabel .bare = leaningProgram.relabel .bare := by
  have hgrammar : leaningProgram.Grammatical := by
    simp [leaningProgram, Grammatical, Stmt.AllGrammatical, Stmt.Grammatical, Stmt.StopsBefore,
      Expr.Grammatical, FnDecl.Grammatical, Stmt.symbols, Expr.symbols, Expr.level,
      BinaryOp.level, maxArity]
  exact ⟨hgrammar, parsed_of_written hgrammar 0⟩

end Program

end Scriptlet
