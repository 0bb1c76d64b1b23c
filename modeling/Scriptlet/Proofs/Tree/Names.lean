import Mathlib.Logic.Function.Basic
import Scriptlet.Builtin
import Scriptlet.Proofs.Tree.Labels
import Scriptlet.Syntax.Cursor

/-! The names in a tree. A function without a name has a made-up one, which is made from a number;
all other names are plain. With other numbers the made-up names change, and nothing else does. -/

namespace Scriptlet

theorem Parse.unnamedFunction_injective : Function.Injective unnamedFunction := by
  intro number other h
  have hdigits : Nat.toDigits 10 number = Nat.toDigits 10 other := by
    simpa [unnamedFunction] using congrArg String.toList h
  rw [← Nat.ofDigitChars_ten_toDigits (n := number), hdigits, Nat.ofDigitChars_ten_toDigits]

/-- The name is not made up. -/
def IsPlain (name : String) : Prop := ∀ number, Parse.unnamedFunction number ≠ name

theorem isPlain_of_head {name : String} (h : name.toList.head? ≠ some '<') : IsPlain name := by
  rintro number rfl
  exact h (by simp [Parse.unnamedFunction, toString])

theorem Builtin.isPlain (builtin : Builtin) : IsPlain builtin.name :=
  isPlain_of_head (by cases builtin <;> decide)

/-- Gives the functions without a name other numbers. -/
noncomputable def renumbered (numbers : Nat → Nat) : String → String :=
  Function.extend Parse.unnamedFunction (fun number => Parse.unnamedFunction (numbers number)) id

section Renumbered

variable {numbers : Nat → Nat}

theorem renumbered_unnamed (numbers : Nat → Nat) (number : Nat) :
    renumbered numbers (Parse.unnamedFunction number) = Parse.unnamedFunction (numbers number) :=
  Parse.unnamedFunction_injective.extend_apply _ _ number

theorem renumbered_plain {name : String} (h : IsPlain name) : renumbered numbers name = name := by
  rw [renumbered, Function.extend_apply']
  · rfl
  · rintro ⟨number, hnumber⟩
    exact h number hnumber

@[simp] theorem renumbered_builtin (numbers : Nat → Nat) (builtin : Builtin) :
    renumbered numbers builtin.name = builtin.name :=
  renumbered_plain builtin.isPlain

theorem renumbered_injective (h : Function.Injective numbers) :
    Function.Injective (renumbered numbers) := by
  intro name other hsame
  by_cases hname : IsPlain name
  · by_cases hother : IsPlain other
    · rwa [renumbered_plain hname, renumbered_plain hother] at hsame
    · obtain ⟨number, rfl⟩ := not_forall_not.mp hother
      rw [renumbered_plain hname, renumbered_unnamed] at hsame
      exact absurd hsame.symm (hname _)
  · obtain ⟨number, rfl⟩ := not_forall_not.mp hname
    by_cases hother : IsPlain other
    · rw [renumbered_plain hother, renumbered_unnamed] at hsame
      exact absurd hsame (hother _)
    · obtain ⟨second, rfl⟩ := not_forall_not.mp hother
      rw [renumbered_unnamed, renumbered_unnamed] at hsame
      rw [h (Parse.unnamedFunction_injective hsame)]

end Renumbered

noncomputable def Relabel.renumber (numbers : Nat → Nat) : Relabel := ⟨id, id, renumbered numbers⟩

@[simp] theorem Relabel.span_renumber (numbers : Nat → Nat) (span : Span) :
    (renumber numbers).span span = span := rfl

@[simp] theorem Relabel.mark_renumber (numbers : Nat → Nat) (mark : Mark) :
    (renumber numbers).mark mark = mark := rfl

@[simp] theorem Param.map_relabel_renumber (numbers : Nat → Nat) (params : List Param) :
    params.map (Param.relabel (.renumber numbers)) = params :=
  Param.map_relabel_keeps (Relabel.span_renumber numbers) params

@[simp] theorem TypeExpr.map_relabel_renumber (numbers : Nat → Nat)
    (written : Option TypeExpr) : written.map (TypeExpr.relabel (.renumber numbers)) = written :=
  TypeExpr.map_relabel_keeps (Relabel.span_renumber numbers) written

theorem Relabel.renumber_id : renumber id = unchanged := by
  have hnames : renumbered id = id := by
    funext name
    by_cases hname : IsPlain name
    · exact renumbered_plain hname
    · obtain ⟨number, rfl⟩ := not_forall_not.mp hname
      exact renumbered_unnamed id number
  rw [renumber, hnames, unchanged]

/-- The names that a node has from the source text. -/
def Node.plainNames : Node → List String
  | .expr (.variable name _) | .expr (.assign name _ _) | .stmt (.binding name _ _ _) => [name]
  | .fn decl => decl.params.map Param.name ++ if decl.anonymous then [] else [decl.name]
  | _ => []

/-- The names that the nodes have from the source text stay. -/
def Fixes (rename : String → String) (nodes : List Node) : Prop :=
  ∀ node ∈ nodes, ∀ name ∈ node.plainNames, rename name = name

section Fixes

variable {rename : String → String} {node : Node} {nodes first second : List Node}

@[simp] theorem fixes_nil : Fixes rename [] := by simp [Fixes]

@[simp] theorem fixes_cons : Fixes rename (node :: nodes) ↔
    (∀ name ∈ node.plainNames, rename name = name) ∧ Fixes rename nodes := by
  simp [Fixes]

@[simp] theorem fixes_append :
    Fixes rename (first ++ second) ↔ Fixes rename first ∧ Fixes rename second :=
  List.forall_mem_append

theorem fixes_id : Fixes id nodes := fun _ _ _ _ => rfl

end Fixes

theorem Node.plainNames_relabel (change : Relabel) (node : Node) :
    (node.relabel change).plainNames = node.plainNames := by
  cases node with
  | expr expr => cases expr <;> rfl
  | stmt stmt => cases stmt <;> rfl
  | fn decl =>
      obtain ⟨name, anonymous, params, result, body, mark⟩ := decl
      cases anonymous <;>
        simp [Node.relabel, FnDecl.relabel, plainNames, Relabel.name, Param.relabel]

end Scriptlet
