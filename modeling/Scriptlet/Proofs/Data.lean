import Scriptlet.Proofs.Data.Tree
import Scriptlet.Proofs.Grammar.Names
import Scriptlet.Proofs.Tree.Parsed

/-! What the data dump of a program says. A program that was read from a source text can be told
from its dump, and the dump is data that reads back. -/

namespace Scriptlet

/-! Numbers of a source text have no sign. -/

theorem Double.ofDecimal_unsigned (digits places : Nat) : (ofDecimal digits places).IsUnsigned := by
  unfold ofDecimal nearest
  dsimp only
  split <;> rfl

theorem Lexeme.Valid.unsigned {lexeme : Lexeme} (h : lexeme.Valid) :
    ∀ value, lexeme.payload = some (.number value) → value.IsUnsigned := by
  intro value hpayload
  cases h with
  | whole h =>
      obtain rfl := Payload.number.inj (Option.some.inj hpayload)
      exact Double.ofDecimal_unsigned _ _
  | decimal h hfraction =>
      obtain rfl := Payload.number.inj (Option.some.inj hpayload)
      exact Double.ofDecimal_unsigned _ _
  | _ => cases hpayload

theorem Token.Layout.unsigned {place : Position} {source : List Char} {tokens : List Token}
    (h : Token.Layout place source tokens) :
    ∀ token ∈ tokens, ∀ value, token.payload = some (.number value) → value.IsUnsigned := by
  induction h with
  | finish _ => simp [Token.endOfInput]
  | token _ hlexeme _ ih => exact List.forall_mem_cons.mpr ⟨hlexeme.valid.unsigned, ih⟩

theorem Literal.eq_of_number {value x : Double} (h : number value = .float x) : value = x := by
  unfold number at h
  split at h
  · cases h
  · exact Literal.float.inj h

theorem Token.payload_of_symbol {token : Token} {x : Double}
    (h : token.symbol = .number (.float x)) : token.payload = some (.number x) := by
  unfold symbol at h
  split at h
  · cases h
  · rename_i hpayload
    rw [hpayload, Literal.eq_of_number (Symbol.number.inj h)]
  · cases h
  · cases h

namespace Program

def data (program : Program) : Json :=
  .object [("statements", .array (Stmt.jsons program.statements))]

variable {source other : String} {unnamed unnamed' : Nat} {program program' : Program}

theorem ofSource_unsigned (h : (ofSource source unnamed).result = .ok program) :
    Unsigned program.nodes := by
  intro node hnode
  obtain ⟨tokens, hlayout, hwritten⟩ := exists_layout h
  have hsymbols := hwritten node hnode
  cases node with
  | expr e =>
      cases e with
      | literal value mark =>
          cases value with
          | float x =>
              obtain ⟨token, hmem, hsymbol⟩ := List.mem_map.mp (hsymbols List.mem_cons_self)
              exact hlayout.unsigned token hmem x (Token.payload_of_symbol hsymbol)
          | _ => trivial
      | _ => trivial
  | _ => trivial

/-- The data dump of a program that was read loses nothing: programs with the same dump are the same
program, and the dump is data that reads back, but for numbers that are too large for a double. -/
theorem json_lossless (h : (ofSource source unnamed).result = .ok program)
    (h' : (ofSource other unnamed').result = .ok program') :
    (program.json = program'.json → program = program') ∧
      Json.read? program.json = some program.data.kept := by
  have hread : Json.read? program.json = some program.data.kept := Json.read?_pretty program.data
  refine ⟨fun hsame => ?_, hread⟩
  have hread' : Json.read? program'.json = some program'.data.kept :=
    Json.read?_pretty program'.data
  rw [hsame, hread'] at hread
  have hstatements : Json.keptItems (Stmt.jsons program.statements) =
      Json.keptItems (Stmt.jsons program'.statements) := by
    simpa [data] using (Option.some.inj hread).symm
  have huntyped := Stmt.jsons_injective _ _ (ofSource_unsigned h) (ofSource_unsigned h')
    hstatements
  rw [Relabel.clears_untyped.stmts (ofSource_fresh h),
    Relabel.clears_untyped.stmts (ofSource_fresh h')] at huntyped
  exact congrArg Program.mk huntyped

/-- An assignment and a comparison of the same parts have different dumps, and both of them read
back. -/
theorem assignment_told_from_comparison :
    (ofSource "rate = 0.1" 0).result = .ok (read "rate = 0.1") ∧
      (ofSource "rate == 0.1" 0).result = .ok (read "rate == 0.1") ∧
      (read "rate = 0.1").json ≠ (read "rate == 0.1").json ∧
      Json.read? (read "rate = 0.1").json = some (read "rate = 0.1").data.kept ∧
      Json.read? (read "rate == 0.1").json = some (read "rate == 0.1").data.kept := by
  have hassign := @ofSource_read "rate = 0.1" (by decide +kernel)
  have hcompare := @ofSource_read "rate == 0.1" (by decide +kernel)
  obtain ⟨hlossless, hread⟩ := json_lossless hassign hcompare
  obtain ⟨-, hread'⟩ := json_lossless hcompare hassign
  have hlengths : (read "rate = 0.1").nodes.length ≠ (read "rate == 0.1").nodes.length := by
    decide +kernel
  exact ⟨hassign, hcompare, fun hsame => hlengths (by rw [hlossless hsame]), hread, hread'⟩

end Program

end Scriptlet
