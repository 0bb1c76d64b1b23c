import Scriptlet.Proofs.Typing.Decided

/-! Checking a tree again. A slot keeps the type that it got first, and the second check goes on
with that type. In the context of the first check it is the one that would be found anyway, also in
a tree whose check was given up: so the second check does what the first one did. -/

namespace Scriptlet

theorem Program.check_fixed {program : Program} (fresh : Fresh program.nodes) (checker : Checker) :
    (program.check checker).node.check checker = program.check checker := by
  obtain ⟨typed, rfl, htyped⟩ | ⟨stuck, e, rfl, hstuck⟩ := decided fresh checker.context
  · have hagain := check_of_typed Relabel.clears_unchanged htyped
    rw [relabel_unchanged] at hagain
    rw [check_of_typed Relabel.clears_untyped htyped]
    exact hagain
  · obtain ⟨after, hcheck⟩ := check_of_stuck hstuck
    have hagain := hcheck Relabel.clears_unchanged
    rw [relabel_unchanged] at hagain
    rw [hcheck Relabel.clears_untyped]
    exact hagain

/-- A freshly read program that is checked, and then checked again as the first check left it, by a
checker in the same state: there is the same verdict, with the same error, the same scopes are left,
and every slot holds what it held after the first check. -/
theorem Program.check_again {tokens : List Token} {unnamed : Nat} {program : Program}
    (h : (ofTokens tokens unnamed).result = .ok program) (checker : Checker) :
    let first := program.check checker
    let second := first.node.check checker
    second.result = first.result ∧ second.checker = first.checker ∧ second.node = first.node := by
  intro first second
  have hsame : second = first := check_fixed (ofTokens_fresh h) checker
  exact ⟨congrArg _ hsame, congrArg _ hsame, congrArg _ hsame⟩

/-- The first check is given up within a function whose name is declared by then. -/
def givenUpTokens : List Token :=
  [⟨.fnWord, "fn", none, ⟨0, 2, 1⟩⟩, ⟨.identifier, "f", none, ⟨3, 1, 1⟩⟩,
    ⟨.leftParen, "(", none, ⟨4, 1, 1⟩⟩, ⟨.rightParen, ")", none, ⟨5, 1, 1⟩⟩,
    ⟨.leftBrace, "\x7b", none, ⟨7, 1, 1⟩⟩, ⟨.identifier, "f", none, ⟨9, 1, 1⟩⟩,
    ⟨.identifier, "x", none, ⟨11, 1, 1⟩⟩, ⟨.rightBrace, "\x7d", none, ⟨13, 1, 1⟩⟩,
    .endOfInput ⟨14, 0, 1⟩]

def givenUp : Program :=
  ⟨[.function ⟨"f", false, [], none,
    [.expression (.variable "f" ⟨⟨9, 1, 1⟩, none⟩), .expression (.variable "x" ⟨⟨11, 1, 1⟩, none⟩)],
    ⟨⟨0, 14, 1⟩, none⟩⟩]⟩

theorem givenUp_again :
    let first := givenUp.check .new
    let second := first.node.check .new
    (Program.ofTokens givenUpTokens 0).result = .ok givenUp ∧
      first.result = .error ⟨.undefined "x", ⟨11, 1, 1⟩⟩ ∧
      first.checker.lookup "f" = some (.function [] .nothing) ∧
      second.result = first.result ∧ second.checker = first.checker ∧ second.node = first.node :=
  have hparsed : (Program.ofTokens givenUpTokens 0).result = .ok givenUp := rfl
  ⟨hparsed, rfl, rfl, Program.check_again hparsed .new⟩

end Scriptlet
