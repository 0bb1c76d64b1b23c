import Scriptlet.Bindings
import Scriptlet.Value

/-! The scopes of a run. Scopes are numbered as they are made, and each but a root stands
inside one that was made before it, so going outward always ends. A name means the binding in
the nearest scope that has one. -/

namespace Scriptlet

structure Scope where
  bindings : Bindings Value
  outer : Option ScopeId

/-- All scopes, by number. -/
structure Scopes where
  all : Array Scope

namespace Scopes

def empty : Scopes := ⟨#[]⟩

def size (scopes : Scopes) : Nat := scopes.all.size

def addRoot (scopes : Scopes) : Scopes × ScopeId :=
  let number := scopes.size
  (⟨scopes.all.push ⟨[], none⟩⟩, number)

def addInside (scopes : Scopes) (outer : ScopeId) : Scopes × ScopeId :=
  let number := scopes.size
  (⟨scopes.all.push ⟨[], some outer⟩⟩, number)

def own? (scopes : Scopes) (scope : ScopeId) (name : String) : Option Value :=
  scopes.all[scope]?.bind (·.bindings.find? name)

def outer? (scopes : Scopes) (scope : ScopeId) : Option ScopeId :=
  match scopes.all[scope]? with
  | some ⟨_, some outer⟩ => if outer < scope then some outer else none
  | _ => none

theorem outer?_lt {scopes : Scopes} {scope outer : ScopeId}
    (h : scopes.outer? scope = some outer) : outer < scope := by
  unfold outer? at h
  split at h
  · split at h
    · rename_i hlt
      simpa [← Option.some.inj h] using hlt
    · exact absurd h (by simp)
  · exact absurd h (by simp)

/-- The nearest scope that binds a name, going outward from a scope. -/
def resolve (scopes : Scopes) (scope : ScopeId) (name : String) : Option ScopeId :=
  if (scopes.own? scope name).isSome then some scope
  else
    match h : scopes.outer? scope with
    | some outer =>
        have := outer?_lt h
        resolve scopes outer name
    | none => none
termination_by scope

def get? (scopes : Scopes) (scope : ScopeId) (name : String) : Option Value :=
  (scopes.resolve scope name).bind (scopes.own? · name)

def contains (scopes : Scopes) (scope : ScopeId) (name : String) : Bool :=
  (scopes.resolve scope name).isSome

/-- Binds a name in a scope itself, whatever the scopes around it say. -/
def define (scopes : Scopes) (scope : ScopeId) (name : String) (value : Value) : Scopes :=
  ⟨scopes.all.modify scope fun s => { s with bindings := s.bindings.insert name value }⟩

/-- Changes the nearest binding of a name, if there is one. -/
def assign? (scopes : Scopes) (scope : ScopeId) (name : String) (value : Value) :
    Option Scopes :=
  match scopes.resolve scope name with
  | some nearest => some (scopes.define nearest name value)
  | none => none

def binds (scopes : Scopes) (scope : ScopeId) (name : String) : Bool :=
  (scopes.own? scope name).isSome

theorem own?_of_size_le {scopes : Scopes} {scope : ScopeId} (h : scopes.size ≤ scope)
    (name : String) : scopes.own? scope name = none := by
  simp only [own?, Array.getElem?_eq_none h, Option.bind_none]

theorem lt_size_of_binds {scopes : Scopes} {scope : ScopeId} {name : String}
    (h : scopes.binds scope name) : scope < scopes.size := by
  by_cases hlt : scope < scopes.size
  · exact hlt
  · simp [binds, own?_of_size_le (Nat.le_of_not_lt hlt)] at h

theorem outer?_of_size_le {scopes : Scopes} {scope : ScopeId} (h : scopes.size ≤ scope) :
    scopes.outer? scope = none := by
  simp only [outer?, Array.getElem?_eq_none h]

@[simp] theorem size_define (scopes : Scopes) (scope : ScopeId) (name : String) (value : Value) :
    (scopes.define scope name value).size = scopes.size := by
  simp [define, size]

@[simp] theorem outer?_define (scopes : Scopes) (scope : ScopeId) (name : String) (value : Value)
    (other : ScopeId) : (scopes.define scope name value).outer? other = scopes.outer? other := by
  simp only [define, outer?, Array.getElem?_modify]
  by_cases h : scope = other
  · subst h
    rcases scopes.all[scope]? with _ | ⟨_, _ | _⟩ <;> simp
  · simp [h]

theorem own?_define_self {scopes : Scopes} {scope : ScopeId} (h : scope < scopes.size)
    (name : String) (value : Value) :
    (scopes.define scope name value).own? scope name = some value := by
  have hscope : scopes.all[scope]? = some scopes.all[scope] := Array.getElem?_eq_getElem h
  simp only [define, own?, Array.getElem?_modify, if_true, hscope, Option.map_some,
    Option.bind_some, Bindings.find?_insert_self]

theorem own?_define_of_ne (scopes : Scopes) {scope other : ScopeId} {name key : String}
    (value : Value) (h : scope ≠ other ∨ name ≠ key) :
    (scopes.define scope name value).own? other key = scopes.own? other key := by
  simp only [define, own?, Array.getElem?_modify]
  by_cases hscope : scope = other
  · subst hscope
    have hname : name ≠ key := h.resolve_left (not_not_intro rfl)
    cases scopes.all[scope]? <;> simp [Bindings.find?_insert_of_ne _ value hname]
  · simp [hscope]

theorem own?_define (scopes : Scopes) (scope other : ScopeId) (name key : String)
    (value : Value) :
    (scopes.define scope name value).own? other key =
      if scope = other ∧ name = key ∧ scope < scopes.size then some value
      else scopes.own? other key := by
  by_cases h : scope = other ∧ name = key
  · obtain ⟨rfl, rfl⟩ := h
    by_cases hsize : scope < scopes.size
    · simp [own?_define_self, hsize]
    · have hle := Nat.le_of_not_lt hsize
      rw [own?_of_size_le (by simpa using hle), own?_of_size_le hle, if_neg (by simp [hsize])]
  · have hne : scope ≠ other ∨ name ≠ key := by
      by_cases hscope : scope = other
      · exact .inr fun hname => h ⟨hscope, hname⟩
      · exact .inl hscope
    rw [own?_define_of_ne scopes value hne, if_neg fun hall => h ⟨hall.1, hall.2.1⟩]

@[simp] theorem size_addInside (scopes : Scopes) (outer : ScopeId) :
    (scopes.addInside outer).1.size = scopes.size + 1 := by
  simp [addInside, size]

@[simp] theorem own?_addInside (scopes : Scopes) (outer scope : ScopeId) (name : String) :
    (scopes.addInside outer).1.own? scope name = scopes.own? scope name := by
  simp only [addInside, own?, Array.getElem?_push]
  by_cases h : scope = scopes.all.size
  · simp [h]
  · simp [h]

theorem outer?_addInside_self {scopes : Scopes} {outer : ScopeId} (h : outer < scopes.size) :
    (scopes.addInside outer).1.outer? scopes.size = some outer := by
  have hlt : outer < scopes.all.size := h
  simp [addInside, outer?, size, hlt]

theorem outer?_addInside_of_lt {scopes : Scopes} {scope : ScopeId} (outer : ScopeId)
    (h : scope < scopes.size) :
    (scopes.addInside outer).1.outer? scope = scopes.outer? scope := by
  have hne : scope ≠ scopes.all.size := Nat.ne_of_lt h
  simp only [addInside, outer?, Array.getElem?_push, hne, if_false]

theorem resolve_eq (scopes : Scopes) (scope : ScopeId) (name : String) :
    scopes.resolve scope name =
      if scopes.binds scope name then some scope
      else (scopes.outer? scope).bind (scopes.resolve · name) := by
  rw [resolve]
  by_cases h : scopes.binds scope name
  · have hown : (scopes.own? scope name).isSome := h
    simp [h, hown]
  · have hown : (scopes.own? scope name).isSome = false := by simpa [binds] using h
    simp only [h, hown, Bool.false_eq_true, if_false]
    split <;> rename_i houter <;> simp [houter]

theorem resolve_of_binds {scopes : Scopes} {scope : ScopeId} {name : String}
    (h : scopes.binds scope name) : scopes.resolve scope name = some scope := by
  rw [resolve_eq, if_pos h]

theorem resolve_of_not_binds {scopes : Scopes} {scope : ScopeId} {name : String}
    (h : ¬scopes.binds scope name) :
    scopes.resolve scope name = (scopes.outer? scope).bind (scopes.resolve · name) := by
  rw [resolve_eq, if_neg h]

theorem binds_of_resolve {scopes : Scopes} {scope found : ScopeId} {name : String}
    (h : scopes.resolve scope name = some found) : scopes.binds found name := by
  induction scope using Nat.strongRecOn with
  | ind scope ih =>
      by_cases hbinds : scopes.binds scope name
      · rw [resolve_of_binds hbinds] at h
        exact Option.some.inj h ▸ hbinds
      · rw [resolve_of_not_binds hbinds] at h
        obtain ⟨outer, houter, hfound⟩ := Option.bind_eq_some_iff.mp h
        exact ih outer (outer?_lt houter) hfound

theorem get?_eq_none {scopes : Scopes} {scope : ScopeId} {name : String} :
    scopes.get? scope name = none ↔ scopes.resolve scope name = none := by
  unfold get?
  cases hresolve : scopes.resolve scope name with
  | none => simp
  | some found => simpa [binds, Option.isSome_iff_ne_none] using binds_of_resolve hresolve

end Scopes

end Scriptlet
