import Scriptlet.Proofs.Scopes

/-! What can be reached from a scope: the scopes around it, and those in which the functions that
are bound there find their names. A realm is what a run has to do with: what could be reached when
the run began, and what was made since. Nothing leads out of it. -/

namespace Scriptlet

/-- The scope in which a function finds the names of its body. -/
def Value.scope? : Value → Option ScopeId
  | .function (.closure closure) => some closure.scope
  | _ => none

theorem Value.scope?_of_kind {value : Value} (h : value.kind ≠ .function) :
    value.scope? = none := by
  cases value with
  | function callable => exact absurd rfl h
  | _ => rfl

namespace Scopes

/-- The scope inside of which another one was made. -/
def link? (scopes : Scopes) (scope : ScopeId) : Option ScopeId :=
  scopes.all[scope]?.bind (·.outer)

theorem link?_of_outer? {scopes : Scopes} {scope outer : ScopeId}
    (h : scopes.outer? scope = some outer) : scopes.link? scope = some outer := by
  unfold outer? at h
  split at h
  · rename_i hscope
    split at h
    · rw [link?, hscope, ← h]
      rfl
    · cases h
  · cases h

theorem link?_of_size_le {scopes : Scopes} {scope : ScopeId} (h : scopes.size ≤ scope) :
    scopes.link? scope = none := by
  rw [link?, Array.getElem?_eq_none h, Option.bind_none]

theorem outer?_of_link? {scopes : Scopes} {scope outer : ScopeId}
    (h : scopes.link? scope = some outer) (hlt : outer < scope) :
    scopes.outer? scope = some outer := by
  unfold link? at h
  obtain ⟨⟨bindings, other⟩, hscope, hother⟩ := Option.bind_eq_some_iff.mp h
  obtain rfl : other = some outer := hother
  simp [outer?, hscope, hlt]

@[simp] theorem link?_define (scopes : Scopes) (scope other : ScopeId) (name : String)
    (value : Value) : (scopes.define scope name value).link? other = scopes.link? other := by
  simp only [define, link?, Array.getElem?_modify]
  by_cases h : scope = other
  · cases hother : scopes.all[other]? <;> simp [h]
  · simp [h]

theorem link?_addInside_self (scopes : Scopes) (outer : ScopeId) :
    (scopes.addInside outer).1.link? scopes.size = some outer := by
  simp [addInside, link?, size]

theorem getElem?_addInside_of_lt {scopes : Scopes} {scope : ScopeId} (outer : ScopeId)
    (h : scope < scopes.size) : (scopes.addInside outer).1.all[scope]? = scopes.all[scope]? := by
  have hne : scope ≠ scopes.all.size := Nat.ne_of_lt h
  simp only [addInside, Array.getElem?_push, hne, if_false]

theorem link?_addInside_of_lt {scopes : Scopes} {scope : ScopeId} (outer : ScopeId)
    (h : scope < scopes.size) : (scopes.addInside outer).1.link? scope = scopes.link? scope := by
  rw [link?, getElem?_addInside_of_lt outer h, link?]

/-- What can be reached from a scope, going outward and into the functions that are bound. -/
inductive Reaches (scopes : Scopes) (start : ScopeId) : ScopeId → Prop
  | here : Reaches scopes start start
  | outward {id outer : ScopeId} (h : Reaches scopes start id)
      (hlink : scopes.link? id = some outer) : Reaches scopes start outer
  | bound {id scope : ScopeId} {name : String} {value : Value} (h : Reaches scopes start id)
      (hbound : scopes.own? id name = some value) (hscope : value.scope? = some scope) :
      Reaches scopes start scope

end Scopes

/-- What a run has to do with: `first` says which scopes it began with, and all scopes from the
number `base` on were made since. -/
structure Realm where
  first : ScopeId → Prop
  base : Nat

def Realm.Has (realm : Realm) (size : Nat) (scope : ScopeId) : Prop :=
  realm.first scope ∨ realm.base ≤ scope ∧ scope < size

namespace Realm.Has

variable {realm : Realm} {size later : Nat} {scope : ScopeId}

theorem mono (h : realm.Has size scope) (hle : size ≤ later) : realm.Has later scope :=
  h.imp_right fun hmade => ⟨hmade.1, Nat.lt_of_lt_of_le hmade.2 hle⟩

theorem new (h : realm.base ≤ size) : realm.Has (size + 1) size :=
  .inr ⟨h, Nat.lt_succ_self size⟩

theorem of_succ (h : realm.Has (size + 1) scope) : realm.Has size scope ∨ scope = size := by
  rcases h with hfirst | ⟨hbase, hlt⟩
  · exact .inl (.inl hfirst)
  · rcases Nat.lt_succ_iff_lt_or_eq.mp hlt with hlt | heq
    · exact .inl (.inr ⟨hbase, hlt⟩)
    · exact .inr heq

end Realm.Has

namespace Scopes

variable {realm : Realm} {scopes before middle after : Scopes} {scope : ScopeId} {name : String}
  {value : Value}

structure Confined (realm : Realm) (scopes : Scopes) : Prop where
  base_le : realm.base ≤ scopes.size
  outward : ∀ id outer, realm.Has scopes.size id → scopes.link? id = some outer →
    realm.Has scopes.size outer
  bound : ∀ id name value inner, realm.Has scopes.size id → scopes.own? id name = some value →
    value.scope? = some inner → realm.Has scopes.size inner

namespace Confined

theorem resolve (h : scopes.Confined realm) {found : ScopeId} (hscope : realm.Has scopes.size scope)
    (hfound : scopes.resolve scope name = some found) : realm.Has scopes.size found := by
  induction scope using Nat.strongRecOn with
  | ind scope ih =>
      by_cases hbinds : scopes.binds scope name
      · rw [resolve_of_binds hbinds] at hfound
        exact Option.some.inj hfound ▸ hscope
      · rw [resolve_of_not_binds hbinds] at hfound
        obtain ⟨outer, houter, hfound⟩ := Option.bind_eq_some_iff.mp hfound
        exact ih outer (outer?_lt houter) (h.outward _ _ hscope (link?_of_outer? houter)) hfound

theorem get? (h : scopes.Confined realm) (hscope : realm.Has scopes.size scope)
    (hget : scopes.get? scope name = some value) :
    ∀ inner ∈ value.scope?, realm.Has scopes.size inner := by
  obtain ⟨nearest, hnearest, hown⟩ := Option.bind_eq_some_iff.mp hget
  exact fun inner hinner => h.bound _ _ _ _ (h.resolve hscope hnearest) hown hinner

theorem reaches (h : scopes.Confined realm) (hscope : realm.Has scopes.size scope) {id : ScopeId}
    (hid : scopes.Reaches scope id) : realm.Has scopes.size id := by
  induction hid with
  | here => exact hscope
  | outward _ hlink ih => exact h.outward _ _ ih hlink
  | bound _ hbound hinner ih => exact h.bound _ _ _ _ ih hbound hinner

theorem define (h : scopes.Confined realm)
    (hvalue : ∀ inner ∈ value.scope?, realm.Has scopes.size inner) :
    (scopes.define scope name value).Confined realm := by
  refine ⟨by simpa using h.base_le, fun id outer hid hlink => ?_,
    fun id key found inner hid hbound hinner => ?_⟩
  · rw [link?_define] at hlink
    rw [size_define] at hid ⊢
    exact h.outward id outer hid hlink
  · rw [size_define] at hid ⊢
    rw [own?_define] at hbound
    split at hbound
    · obtain rfl := Option.some.inj hbound
      exact hvalue inner hinner
    · exact h.bound id key found inner hid hbound hinner

theorem addInside (h : scopes.Confined realm) (hscope : realm.Has scopes.size scope) :
    (scopes.addInside scope).1.Confined realm := by
  have hgrows : scopes.size ≤ (scopes.addInside scope).1.size := by simp
  refine ⟨Nat.le_trans h.base_le hgrows, fun id outer hid hlink => ?_,
    fun id key found inner hid hbound hinner => ?_⟩
  · rw [size_addInside] at hid
    rcases hid.of_succ with hid | rfl
    · by_cases hlt : id < scopes.size
      · rw [link?_addInside_of_lt scope hlt] at hlink
        exact (h.outward id outer hid hlink).mono hgrows
      · -- the number of the new scope may have been at large before there was such a scope
        rcases Nat.lt_or_eq_of_le (Nat.not_lt.mp hlt) with hgt | rfl
        · rw [link?_of_size_le (by rwa [size_addInside])] at hlink
          cases hlink
        · rw [link?_addInside_self] at hlink
          exact Option.some.inj hlink ▸ hscope.mono hgrows
    · rw [link?_addInside_self] at hlink
      exact Option.some.inj hlink ▸ hscope.mono hgrows
  · rw [own?_addInside] at hbound
    rw [size_addInside] at hid
    rcases hid.of_succ with hid | rfl
    · exact (h.bound id key found inner hid hbound hinner).mono hgrows
    · rw [own?_of_size_le (Nat.le_refl _)] at hbound
      cases hbound

end Confined

/-- Scopes that a run within the realm leads to. What does not belong to the realm is left as it
is, and a new scope stands inside one that belonged to it by then. -/
structure Leads (realm : Realm) (before after : Scopes) : Prop where
  confined : after.Confined realm
  size_le : before.size ≤ after.size
  link : ∀ id < before.size, after.link? id = before.link? id
  binds : ∀ id name, before.binds id name → after.binds id name
  untouched : ∀ id < realm.base, ¬realm.first id → after.all[id]? = before.all[id]?
  made : ∀ id, before.size ≤ id → id < after.size →
    ∃ outer, after.link? id = some outer ∧ realm.Has id outer

namespace Leads

theorem refl (h : scopes.Confined realm) : Leads realm scopes scopes :=
  ⟨h, Nat.le_refl _, fun _ _ => rfl, fun _ _ hbinds => hbinds, fun _ _ _ => rfl,
    fun _ hle hlt => absurd hlt (Nat.not_lt.mpr hle)⟩

theorem trans (h : Leads realm before middle) (h' : Leads realm middle after) :
    Leads realm before after := by
  refine ⟨h'.confined, Nat.le_trans h.size_le h'.size_le, fun id hid => ?_,
    fun id name hbinds => h'.binds id name (h.binds id name hbinds), fun id hid hfirst => ?_,
    fun id hle hlt => ?_⟩
  · rw [h'.link id (Nat.lt_of_lt_of_le hid h.size_le), h.link id hid]
  · rw [h'.untouched id hid hfirst, h.untouched id hid hfirst]
  · by_cases hmiddle : id < middle.size
    · obtain ⟨outer, houter, hhas⟩ := h.made id hle hmiddle
      exact ⟨outer, (h'.link id hmiddle).trans houter, hhas⟩
    · exact h'.made id (Nat.not_lt.mp hmiddle) hlt

theorem define (h : Leads realm before middle) (hscope : realm.Has middle.size scope)
    (hvalue : ∀ inner ∈ value.scope?, realm.Has middle.size inner) :
    Leads realm before (middle.define scope name value) := by
  refine h.trans ⟨h.confined.define hvalue, by simp, fun _ _ => by simp,
    (Extends.define middle scope name value).binds, fun id hid hfirst => ?_,
    fun id hle hlt => absurd (by simpa using hlt) (Nat.not_lt.mpr hle)⟩
  have hne : scope ≠ id := by
    rintro rfl
    rcases hscope with hscope | ⟨hbase, _⟩
    · exact hfirst hscope
    · exact absurd hid (Nat.not_lt.mpr hbase)
  simp [Scopes.define, Array.getElem?_modify, hne]

theorem addInside (h : Leads realm before middle) (hscope : realm.Has middle.size scope) :
    Leads realm before (middle.addInside scope).1 := by
  refine h.trans ⟨h.confined.addInside hscope, by simp,
    fun id hid => link?_addInside_of_lt scope hid,
    (Extends.addInside (fun _ _ => False) middle scope).binds, fun id hid _ => ?_,
    fun id hle hlt => ?_⟩
  · exact getElem?_addInside_of_lt scope (Nat.lt_of_lt_of_le hid h.confined.base_le)
  · obtain rfl : id = middle.size := by
      rw [size_addInside] at hlt
      omega
    exact ⟨scope, link?_addInside_self middle scope, hscope⟩

theorem has_new (h : Leads realm before middle) (outer : ScopeId) :
    realm.Has (middle.addInside outer).1.size middle.size := by
  rw [size_addInside]
  exact .new h.confined.base_le

theorem defineParams {params : List Param} {args : List Value} (h : Leads realm before middle)
    (hscope : realm.Has middle.size scope)
    (hargs : ∀ arg ∈ args, ∀ inner ∈ arg.scope?, realm.Has middle.size inner) :
    Leads realm before (middle.defineParams scope params args) := by
  have hentries : ∀ entry ∈ params.zip args, ∀ inner ∈ entry.2.scope?,
      realm.Has middle.size inner := fun entry hentry => hargs entry.2 (List.of_mem_zip hentry).2
  clear hargs
  unfold Scopes.defineParams
  generalize params.zip args = entries at hentries ⊢
  induction entries generalizing middle with
  | nil => exact h
  | cons entry rest ih =>
      rw [List.forall_mem_cons] at hentries
      exact ih (h.define hscope hentries.1) (by simpa using hscope) (by simpa using hentries.2)

theorem enter {params : List Param} {args : List Value} (h : Leads realm before middle)
    (hscope : realm.Has middle.size scope)
    (hargs : ∀ arg ∈ args, ∀ inner ∈ arg.scope?, realm.Has middle.size inner) :
    Leads realm before (middle.enter scope params args) :=
  (h.addInside hscope).defineParams (h.has_new scope) fun arg harg inner hinner =>
    (hargs arg harg inner hinner).mono (by simp)

theorem enclose (h : Leads realm before middle) (hscope : realm.Has middle.size scope)
    (hvalue : ∀ inner ∈ value.scope?, inner = middle.size) :
    Leads realm before (middle.enclose scope name value) :=
  (h.addInside hscope).define (h.has_new scope) fun inner hinner =>
    hvalue inner hinner ▸ h.has_new scope

end Leads

end Scopes

end Scriptlet
