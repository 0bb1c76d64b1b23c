import Scriptlet.Proofs.Grammar.Within
import Scriptlet.Proofs.Parsing
import Scriptlet.Proofs.Scanning.Layout
import Scriptlet.Proofs.Tree.Names
import Scriptlet.Proofs.Tree.Parsed

/-! Where the plain names in a tree come from. They are written out with it, so in a program that is
read each of them is a word of the source text, and none looks like a made-up name. -/

namespace Scriptlet

theorem Param.mem_listed {params : List Param} {param : Param} (h : param ∈ params) :
    .name param.name ∈ Symbol.listed (params.map Param.symbols) :=
  Symbol.mem_listed (List.mem_map_of_mem h) (by simp [Param.symbols])

theorem Node.plainNames_written (node : Node) :
    ∀ name ∈ node.plainNames, .name name ∈ node.symbols := by
  cases node with
  | expr e => cases e <;> simp [plainNames, symbols, Expr.symbols]
  | stmt s => cases s <;> simp [plainNames, symbols, Stmt.symbols]
  | fn decl =>
      obtain ⟨name, anonymous, params, result, body, mark⟩ := decl
      intro written hmem
      rcases List.mem_append.mp hmem with hparam | hname
      · obtain ⟨param, hlisted, rfl⟩ := List.mem_map.mp hparam
        simp [symbols, FnDecl.symbols, Param.mem_listed hlisted]
      · cases anonymous with
        | true => cases hname
        | false => simp [symbols, FnDecl.symbols, List.mem_singleton.mp hname]

/-- A word that is no keyword. -/
structure IsName (name : String) : Prop where
  word : Lexeme.IsWord name.toList
  plain : ∀ kind ∈ Kind.keywords, kind.spelling ≠ name

theorem IsName.head {name : String} (h : IsName name) :
    ∃ c more, name.toList = c :: more ∧ Lexeme.isWordStart c := by
  have hword := h.word
  generalize name.toList = chars at hword
  cases chars with
  | nil => exact hword.elim
  | cons c more => exact ⟨c, more, rfl, hword.head⟩

theorem IsName.isPlain {name : String} (h : IsName name) : IsPlain name := by
  obtain ⟨c, more, hname, hstart⟩ := h.head
  refine isPlain_of_head fun hhead => ?_
  obtain rfl : c = '<' := by simpa [hname] using hhead
  exact absurd hstart (by decide)

theorem Lexeme.Valid.isName {lexeme : Lexeme} (h : lexeme.Valid)
    (hkind : lexeme.kind = .identifier) : IsName (String.ofList lexeme.text) := by
  cases h with
  | mark hmark =>
      obtain rfl : _ = Kind.identifier := hkind
      exact absurd hmark (by decide)
  | keyword hkeyword =>
      obtain rfl : _ = Kind.identifier := hkind
      exact absurd hkeyword (by decide)
  | @name text hword hkeyword =>
      refine ⟨by simpa [identifier] using hword, fun kind hmem heq => hkeyword kind hmem ?_⟩
      rw [heq, identifier, String.toList_ofList]
  | _ => cases hkind

theorem Token.Layout.isName {place : Position} {source : List Char} {tokens : List Token}
    (h : Token.Layout place source tokens) :
    ∀ token ∈ tokens, token.kind = .identifier → IsName token.lexeme := by
  induction h with
  | finish _ => simp [Token.endOfInput]
  | token _ hlexeme _ ih => exact List.forall_mem_cons.mpr ⟨hlexeme.valid.isName, ih⟩

namespace Program

variable {source : String} {unnamed : Nat} {program : Program}

theorem exists_layout (h : (ofSource source unnamed).result = .ok program) :
    ∃ tokens, Token.Layout .start source.toList tokens ∧
      WrittenIn (tokens.map Token.symbol) program.nodes := by
  obtain ⟨tokens, hscan, hparsed⟩ := exists_scanned h
  have hwritten := Stmt.allWrittenIn program.statements
  rw [← symbols, ← (spelled_of_result hparsed).written.2] at hwritten
  exact ⟨tokens, Token.layout_of_scanFrom hscan,
    hwritten.mono (List.map_subset _ (List.takeWhile_sublist _).subset)⟩

theorem ofSource_plain (h : (ofSource source unnamed).result = .ok program) :
    ∀ node ∈ program.nodes, ∀ name ∈ node.plainNames, IsPlain name := by
  intro node hnode name hname
  obtain ⟨tokens, hlayout, hwritten⟩ := exists_layout h
  obtain ⟨token, hmem, hsymbol⟩ :=
    List.mem_map.mp (hwritten node hnode (node.plainNames_written name hname))
  have hkind : token.kind = .identifier := by rw [← Token.kind_symbol, hsymbol, Symbol.kind]
  have hword := hlayout.isName token hmem hkind
  rw [Token.symbol, hkind] at hsymbol
  exact Symbol.name.inj hsymbol ▸ hword.isPlain

end Program

end Scriptlet
