import Mathlib.Data.List.Forall2
import Scriptlet.Proofs.Scopes

/-! Scopes of one shape. Names may be bound under other names and to other values, as long as no
two names become one; then every name is resolved to the same scope. -/

namespace Scriptlet.Scopes

/-- Where the second scopes bind a name, the first ones bind what it is renamed to, and to a
related value. -/
structure Alike (related : Value → Value → Prop) (rename : String → String)
    (scopes scopes' : Scopes) : Prop where
  size : scopes.size = scopes'.size
  outer : ∀ scope, scopes.outer? scope = scopes'.outer? scope
  own : ∀ scope name,
    Option.Rel related (scopes.own? scope (rename name)) (scopes'.own? scope name)

variable {related : Value → Value → Prop} {rename : String → String} {scopes scopes' : Scopes}
  {value value' : Value}

theorem Alike.binds_eq (h : scopes.Alike related rename scopes') (scope : ScopeId)
    (name : String) : scopes.binds scope (rename name) = scopes'.binds scope name := by
  have hown := h.own scope name
  unfold binds
  generalize scopes.own? scope (rename name) = own at hown ⊢
  generalize scopes'.own? scope name = own' at hown ⊢
  cases hown <;> rfl

theorem Alike.resolve_eq (h : scopes.Alike related rename scopes') (scope : ScopeId)
    (name : String) : scopes.resolve scope (rename name) = scopes'.resolve scope name := by
  induction scope using Nat.strongRecOn with
  | ind scope ih =>
      rw [Scopes.resolve_eq, Scopes.resolve_eq, h.binds_eq, h.outer]
      cases houter : scopes'.outer? scope with
      | none => rfl
      | some outer => rw [Option.bind_some, Option.bind_some, ih outer (outer?_lt houter)]

theorem Alike.get? (h : scopes.Alike related rename scopes') (scope : ScopeId) (name : String) :
    Option.Rel related (scopes.get? scope (rename name)) (scopes'.get? scope name) := by
  rw [Scopes.get?, Scopes.get?, h.resolve_eq]
  cases scopes'.resolve scope name with
  | none => exact .none
  | some found => exact h.own found name

theorem Alike.define (h : scopes.Alike related rename scopes')
    (hinjective : Function.Injective rename) (scope : ScopeId) (name : String)
    (hvalue : related value value') :
    (scopes.define scope (rename name) value).Alike related rename
      (scopes'.define scope name value') where
  size := by simp [h.size]
  outer other := by simp [h.outer]
  own other key := by
    simp only [own?_define, h.size, hinjective.eq_iff]
    split
    · exact .some hvalue
    · exact h.own other key

theorem Alike.addInside (h : scopes.Alike related rename scopes') (outer : ScopeId) :
    (scopes.addInside outer).1.Alike related rename (scopes'.addInside outer).1 where
  size := by simp [h.size]
  outer other := by rw [outer?_addInside, outer?_addInside, h.size, h.outer]
  own other key := by simpa using h.own other key

theorem Alike.defineParams (h : scopes.Alike related rename scopes')
    (hinjective : Function.Injective rename) (scope : ScopeId) {params params' : List Param}
    (hparams : List.Forall₂ (fun param param' => param.name = rename param'.name) params params')
    {args args' : List Value} (hargs : List.Forall₂ related args args') :
    (scopes.defineParams scope params args).Alike related rename
      (scopes'.defineParams scope params' args') := by
  unfold Scopes.defineParams
  induction hargs generalizing params params' scopes scopes' with
  | nil => simpa using h
  | cons harg _ ih =>
      cases hparams with
      | nil => simpa using h
      | @cons param param' _ _ hparam hparams =>
          have hdefine := h.define hinjective scope param'.name harg
          rw [← hparam] at hdefine
          exact ih hdefine hparams

end Scriptlet.Scopes
