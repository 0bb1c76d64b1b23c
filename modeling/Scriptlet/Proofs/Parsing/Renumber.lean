import Scriptlet.Proofs.Lookahead
import Scriptlet.Session

/-! Parsing with later numbers. From a later number on the same is read up to the names of functions
without a name, just as many numbers are used up, and an error is the same error. -/

namespace Scriptlet

namespace Program

variable {numbers : Nat → Nat} {unnamed distance : Nat}

/-- With later numbers tokens are read as the same program up to the made-up names, or rejected
with the same error, and no number is given back. -/
theorem ofTokens_later (tokens : List Token) : unnamed ≤ (ofTokens tokens unnamed).unnamed ∧
    ((∀ number, unnamed ≤ number → number < (ofTokens tokens unnamed).unnamed →
        numbers number = number + distance) →
      ofTokens tokens (unnamed + distance) =
        ⟨(ofTokens tokens unnamed).result.map (relabel (.renumber numbers)),
          (ofTokens tokens unnamed).unnamed + distance⟩) := by
  obtain ⟨passed, hrest, hfinish, hle, hlater⟩ :=
    parse_repeats numbers (Nat.le_refl (parseFuel tokens)) _ (@parse_not_exhausted tokens unnamed)
  have hlater := hlater _ _ distance ⟨rfl, fun _ => rfl⟩
  have hplace : (Cursor.ofTokens tokens unnamed).elsewhere (Cursor.ofTokens tokens unnamed).rest
      (Cursor.ofTokens tokens unnamed).finish distance =
        .ofTokens tokens (unnamed + distance) := rfl
  rw [← hrest, hfinish, hplace] at hlater
  rw [ofTokens_eq_told, ofTokens_eq_told]
  cases hparsed : parse (parseFuel tokens) (.ofTokens tokens unnamed) with
  | ok statements left =>
      rw [hparsed] at hle hlater
      refine ⟨hle, fun hnumbers => ?_⟩
      rw [hlater hnumbers]
      rfl
  | error e left =>
      rw [hparsed] at hle hlater
      refine ⟨hle, fun hnumbers => ?_⟩
      rw [hlater hnumbers]
      rfl

theorem ofSource_later (source : String) : unnamed ≤ (ofSource source unnamed).unnamed ∧
    ((∀ number, unnamed ≤ number → number < (ofSource source unnamed).unnamed →
        numbers number = number + distance) →
      ofSource source (unnamed + distance) =
        ⟨(ofSource source unnamed).result.map (relabel (.renumber numbers)),
          (ofSource source unnamed).unnamed + distance, (ofSource source unnamed).events⟩) := by
  cases hscan : Token.scan source with
  | error e =>
      simp only [ofSource, hscan]
      exact ⟨Nat.le_refl _, fun _ => rfl⟩
  | ok tokens =>
      obtain ⟨hle, hlater⟩ := @ofTokens_later numbers unnamed distance tokens
      simp only [ofSource, hscan]
      cases hparsed : (ofTokens tokens unnamed).result with
      | error e =>
          refine ⟨hle, fun hnumbers => ?_⟩
          rw [hlater hnumbers, hparsed]
          rfl
      | ok program =>
          refine ⟨hle, fun hnumbers => ?_⟩
          have hlength : (program.relabel (.renumber numbers)).statements.length =
              program.statements.length := List.length_map _
          rw [hlater hnumbers, hparsed]
          dsimp only
          rw [← hlength]
          rfl

end Program

end Scriptlet
