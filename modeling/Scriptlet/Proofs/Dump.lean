import Scriptlet.Proofs.Dump.Back
import Scriptlet.Proofs.Grammar.Nodes

/-! What the dump of a program says. A program that was read from a source text has only names that
are words, texts without quotes, and no function that stands alone; so its dump reads back, and two
such programs with one dump differ in nothing but places and types. -/

namespace Scriptlet

/-- Names are words, and texts have no quotes in them. -/
def Symbol.Legible : Symbol → Prop
  | .name written => IsName written
  | .text value => '"' ∉ value.toList
  | _ => True

theorem Lexeme.Valid.no_quote {lexeme : Lexeme} (h : lexeme.Valid) {value : String}
    (hpayload : lexeme.payload = some (.text value)) : '"' ∉ value.toList := by
  cases h with
  | quoted hbody =>
      obtain rfl := Payload.text.inj (Option.some.inj hpayload)
      rwa [String.toList_ofList]
  | _ => cases hpayload

theorem Lexeme.Valid.legible {lexeme : Lexeme} (h : lexeme.Valid) (place : Position) :
    (lexeme.toToken place).symbol.Legible := by
  unfold Token.symbol
  split
  · rename_i hkind
    exact h.isName hkind
  · trivial
  · rename_i hpayload
    exact h.no_quote hpayload
  · trivial

theorem Token.Layout.legible {place : Position} {source : List Char} {tokens : List Token}
    (h : Token.Layout place source tokens) :
    ∀ symbol ∈ tokens.map Token.symbol, symbol.Legible := by
  induction h with
  | finish _ => simp [Token.endOfInput, Token.symbol, Symbol.Legible]
  | @token place gap _ lexeme _ _ hlexeme _ ih =>
      exact List.forall_mem_cons.mpr ⟨hlexeme.valid.legible (place.after gap), ih⟩

namespace Node

def isFinite : Node → Bool
  | .expr (.literal (.float value) _) => value.IsFinite
  | _ => true

theorem legible_annotations {node : Node} (hsymbols : ∀ symbol ∈ node.symbols, symbol.Legible) :
    ∀ written ∈ node.annotations, written.Legible := fun written hwritten name hname =>
  hsymbols (.name name) (node.annotations_written written hwritten _ hname)

theorem legible_fn {decl : FnDecl} (hsymbols : ∀ symbol ∈ (fn decl).symbols, symbol.Legible)
    (hspelled : (fn decl).IsSpelled) : decl.Legible := by
  have hannotations := legible_annotations hsymbols
  obtain ⟨name, anonymous, params, result, body, mark⟩ := decl
  refine ⟨?_, fun param hparam => ⟨?_, fun written hwritten => ?_⟩, fun written hwritten => ?_⟩
  · obtain ⟨_, _, _, hspelled⟩ := hspelled
    cases hspelled with
    | intro hname =>
        cases hname with
        | own _ => exact hsymbols (.name _) (by simp [symbols, FnDecl.symbols])
        | fresh => exact ⟨_, rfl⟩
  · have hmem : Symbol.name param.name ∈ Symbol.listed (params.map Param.symbols) :=
      Symbol.mem_listed (List.mem_map_of_mem hparam) List.mem_cons_self
    exact hsymbols (.name param.name) (by simp [symbols, FnDecl.symbols, hmem])
  · exact hannotations written
      (List.mem_append_left _ (List.mem_filterMap.mpr ⟨param, hparam, hwritten⟩))
  · exact hannotations written (List.mem_append_right _ (Option.mem_toList.mpr hwritten))

theorem not_isFunction {expr : Expr} (h : (Node.stmt (.expression expr)).IsSpelled) :
    ¬expr.isFunction := by
  obtain ⟨_, _, hspelled⟩ := h
  cases hspelled with
  | expression hexpr start =>
      intro hfunction
      cases hexpr with
      | function hword _ => exact start hword.peek_kind
      | _ => cases hfunction

theorem legible {node : Node} (hsymbols : ∀ symbol ∈ node.symbols, symbol.Legible)
    (hspelled : node.IsSpelled) (hfinite : node.isFinite) : node.Legible := by
  cases node with
  | fn decl => exact legible_fn hsymbols hspelled
  | expr e =>
      cases e with
      | literal value mark =>
          cases value with
          | float value => exact (of_decide_eq_true hfinite : value.IsFinite)
          | text value => exact hsymbols (.text value) List.mem_cons_self
          | _ => trivial
      | «variable» name mark => exact hsymbols (.name name) List.mem_cons_self
      | assign name value mark => exact hsymbols (.name name) List.mem_cons_self
      | _ => trivial
  | stmt s =>
      cases s with
      | expression e => exact not_isFunction hspelled
      | binding name declared init mark =>
          refine ⟨hsymbols (.name name) (by simp [symbols, Stmt.symbols]), ?_⟩
          exact fun written hwritten =>
            legible_annotations hsymbols written (Option.mem_toList.mpr hwritten)
      | _ => trivial

end Node

namespace Program

def HasFiniteNumbers (program : Program) : Prop := ∀ node ∈ program.nodes, node.isFinite

instance (program : Program) : Decidable program.HasFiniteNumbers :=
  inferInstanceAs (Decidable (∀ node ∈ program.nodes, node.isFinite))

/-- The program, without places and types, that a text is the dump of. -/
def ofSexp? (text : String) : Option Program := do
  let forms ← Form.lines? (text.length + 1) text.toList
  return ⟨← Form.stmts? forms⟩

variable {source other : String} {unnamed unnamed' : Nat} {program program' : Program}

theorem allNodesLegible (h : (ofSource source unnamed).result = .ok program)
    (hfinite : program.HasFiniteNumbers) : AllNodesLegible program.nodes := by
  obtain ⟨tokens, hlayout, hwritten⟩ := exists_layout h
  obtain ⟨_, -, hparsed⟩ := exists_scanned h
  have hspelled := ofTokens_spelled hparsed
  exact fun node hnode => Node.legible (fun symbol hmem =>
    hlayout.legible symbol (hwritten node hnode hmem)) (hspelled node hnode) (hfinite node hnode)

/-- A legible program is read back from its dump. -/
theorem ofSexp?_sexp (h : AllNodesLegible program.nodes) :
    ofSexp? program.sexp = some (program.relabel .placeless) := by
  have hfuel : ((Stmt.forms program.statements).flatMap fun form => form.text ++ ['\n']).length <
      program.sexp.length + 1 := by
    rw [← toList_sexp, String.length_toList]
    exact Nat.lt_succ_self _
  have hforms := Form.lines?_texts (Stmt.legible_forms program.statements h) hfuel
  rw [← toList_sexp] at hforms
  simp [ofSexp?, hforms, Stmt.stmts?_forms program.statements h, relabel]

/-- Programs that were read from source texts, with finite numbers only, can be told from their
dumps but for places and types. -/
theorem sexp_unambiguous (h : (ofSource source unnamed).result = .ok program)
    (h' : (ofSource other unnamed').result = .ok program') (hfinite : program.HasFiniteNumbers)
    (hfinite' : program'.HasFiniteNumbers) (hsame : program.sexp = program'.sexp) :
    program.relabel .placeless = program'.relabel .placeless := by
  have hread := ofSexp?_sexp (allNodesLegible h hfinite)
  rw [hsame, ofSexp?_sexp (allNodesLegible h' hfinite')] at hread
  exact (Option.some.inj hread).symm

/-- Blanks and zeros are not kept in a dump, and nothing but places hangs on them. -/
theorem sexp_of_spaced :
    (ofSource "let half: Float = f(0.5 -x)" 0).result =
        .ok (read "let half: Float = f(0.5 -x)") ∧
      (read "let half: Float = f(0.5 -x)").relabel .placeless =
        (read "let half:Float=f( 0.50 - x )").relabel .placeless := by
  have hfirst := @ofSource_read "let half: Float = f(0.5 -x)" (by decide +kernel)
  have hsecond := @ofSource_read "let half:Float=f( 0.50 - x )" (by decide +kernel)
  exact ⟨hfirst, sexp_unambiguous hfirst hsecond (by decide +kernel) (by decide +kernel)
    (by decide +kernel)⟩

end Program

end Scriptlet
