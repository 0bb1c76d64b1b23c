import Scriptlet.Proofs.Grammar.Nodes
import Scriptlet.Proofs.Parsing
import Scriptlet.Session

/-! Trees that are read from tokens are spelled node by node, and so they are fresh. -/

namespace Scriptlet

theorem Node.IsSpelled.isFresh {node : Node} (h : node.IsSpelled) : node.isFresh := by
  cases node with
  | expr e =>
      obtain ⟨_, _, hspelled⟩ := h
      cases hspelled <;> rfl
  | stmt s =>
      obtain ⟨_, _, hspelled⟩ := h
      cases hspelled with
      | conditional _ _ _ hotherwise branch =>
          cases hotherwise with
          | absent => rfl
          | present => exact branch _ rfl
      | _ => rfl
  | fn decl =>
      obtain ⟨_, _, _, hspelled⟩ := h
      cases hspelled
      rfl

theorem Program.ofTokens_spelled {tokens : List Token} {unnamed : Nat} {program : Program}
    (h : (ofTokens tokens unnamed).result = .ok program) : AllSpelled program.nodes := by
  obtain ⟨last, hspelled, -, -⟩ := spelled_of_result h
  exact Stmt.Spelled.allNodes program.statements hspelled.forall_mem

theorem Program.ofTokens_fresh {tokens : List Token} {unnamed : Nat} {program : Program}
    (h : (ofTokens tokens unnamed).result = .ok program) : Fresh program.nodes :=
  fun node hnode => (ofTokens_spelled h node hnode).isFresh

theorem Program.exists_scanned {source : String} {unnamed : Nat} {program : Program}
    (h : (Program.ofSource source unnamed).result = .ok program) :
    ∃ tokens, Token.scan source = .ok tokens ∧ (ofTokens tokens unnamed).result = .ok program := by
  unfold ofSource at h
  split at h
  · simp at h
  · rename_i tokens hscan
    refine ⟨tokens, hscan, ?_⟩
    simp only at h
    split at h
    · simp at h
    · rename_i hparsed
      rwa [← Except.ok.inj h]

theorem Program.ofSource_fresh {source : String} {unnamed : Nat} {program : Program}
    (h : (Program.ofSource source unnamed).result = .ok program) : Fresh program.nodes := by
  obtain ⟨tokens, -, hparsed⟩ := exists_scanned h
  exact ofTokens_fresh hparsed

/-- The program that a source text spells out, or an empty one. -/
def Program.read (source : String) : Program :=
  (Program.ofSource source 0).result.toOption.getD ⟨[]⟩

theorem Program.read_fresh (source : String) : Fresh (Program.read source).nodes := by
  unfold read
  cases hread : (Program.ofSource source 0).result with
  | ok program => exact ofSource_fresh hread
  | error e => exact fresh_nil

theorem Program.ofSource_read {source : String} (h : (ofSource source 0).result.isOk) :
    (ofSource source 0).result = .ok (read source) := by
  unfold read
  cases hresult : (ofSource source 0).result with
  | ok program => rfl
  | error e =>
      rw [hresult] at h
      cases h

end Scriptlet
