import Scriptlet.Eval
import Scriptlet.Proofs.Scopes.Reach

/-! The scopes as a forest. Scopes are made inside others that there are, names are defined and
assigned to, in any order. What a write anywhere in the forest does to the lookups in every scope of
it is said by the links alone: a lookup sees the write if it comes there before it finds the
name. -/

namespace Scriptlet

namespace Scopes

/-- The forests that come about by any steps. -/
inductive Built : Scopes → Prop
  | empty : Built .empty
  | addRoot {scopes : Scopes} (h : Built scopes) : Built scopes.addRoot.1
  | addInside {scopes : Scopes} {outer : ScopeId} (h : Built scopes)
      (houter : outer < scopes.size) : Built (scopes.addInside outer).1
  | define {scopes : Scopes} {scope : ScopeId} (h : Built scopes) (hscope : scope < scopes.size)
      (name : String) (value : Value) : Built (scopes.define scope name value)
  | assign {scopes after : Scopes} {scope : ScopeId} {name : String} {value : Value}
      (h : Built scopes) (hassign : scopes.assign? scope name value = some after) : Built after

/-- Going outward from a scope, link by link, one comes to `found`, and no scope on the way there
binds the name. -/
inductive Sees (scopes : Scopes) (name : String) (found : ScopeId) : ScopeId → Prop
  | here : Sees scopes name found found
  | outward {scope outer : ScopeId} (hlink : scopes.link? scope = some outer)
      (hfree : ¬scopes.binds scope name) (h : Sees scopes name found outer) :
      Sees scopes name found scope

/-- One slot has got the value, and with it all lookups that come to that slot. -/
structure Sets (scope : ScopeId) (name : String) (value : Value) (before after : Scopes) :
    Prop where
  size : after.size = before.size
  link : ∀ id, after.link? id = before.link? id
  own : ∀ id key, after.own? id key =
    if scope = id ∧ name = key then some value else before.own? id key
  seen : ∀ id, before.Sees name scope id → after.get? id name = some value
  unseen : ∀ id key, (key = name → ¬before.Sees name scope id) →
    after.get? id key = before.get? id key

theorem link?_addRoot (scopes : Scopes) (id : ScopeId) :
    scopes.addRoot.1.link? id = scopes.link? id := by
  by_cases h : id = scopes.all.size
  · rw [link?_of_size_le (Nat.le_of_eq h.symm)]
    simp [addRoot, link?, h]
  · simp only [addRoot, link?, Array.getElem?_push, h, if_false]

theorem Built.link_lt {scopes : Scopes} (h : scopes.Built) {id outer : ScopeId}
    (hlink : scopes.link? id = some outer) : outer < id := by
  induction h generalizing id outer with
  | empty => cases hlink
  | addRoot _ ih => exact ih ((link?_addRoot _ _).symm.trans hlink)
  | @addInside scopes inside _ houter ih =>
      by_cases hnew : id < scopes.size
      · rw [link?_addInside_of_lt inside hnew] at hlink
        exact ih hlink
      · by_cases hself : id = scopes.size
        · subst hself
          rw [link?_addInside_self] at hlink
          exact Option.some.inj hlink ▸ houter
        · have hbeyond : (scopes.addInside inside).1.size ≤ id := by
            rw [size_addInside]
            exact Nat.lt_of_le_of_ne (Nat.not_lt.mp hnew) (Ne.symm hself)
          rw [link?_of_size_le hbeyond] at hlink
          cases hlink
  | define _ _ _ _ ih => exact ih ((link?_define _ _ _ _ _).symm.trans hlink)
  | @assign scopes after scope name value _ hassign ih =>
      unfold assign? at hassign
      split at hassign
      · obtain rfl := Option.some.inj hassign
        exact ih ((link?_define _ _ _ _ _).symm.trans hlink)
      · cases hassign

theorem Built.outer?_eq_link? {scopes : Scopes} (h : scopes.Built) (id : ScopeId) :
    scopes.outer? id = scopes.link? id := by
  cases hlink : scopes.link? id with
  | some outer => exact outer?_of_link? hlink (h.link_lt hlink)
  | none =>
      cases houter : scopes.outer? id with
      | none => rfl
      | some outer =>
          rw [link?_of_outer? houter] at hlink
          cases hlink

section Lookup

variable {scopes : Scopes} {scope found : ScopeId} {name : String}

theorem get?_of_binds (h : scopes.binds scope name) :
    scopes.get? scope name = scopes.own? scope name := by
  rw [get?, resolve_of_binds h, Option.bind_some]

theorem Built.get?_of_not_binds (hbuilt : scopes.Built) (h : ¬scopes.binds scope name) :
    scopes.get? scope name = (scopes.link? scope).bind (scopes.get? · name) := by
  rw [get?, resolve_of_not_binds h, hbuilt.outer?_eq_link?]
  cases scopes.link? scope <;> rfl

theorem Built.resolve_eq_some_iff (hbuilt : scopes.Built) :
    scopes.resolve scope name = some found ↔
      scopes.Sees name found scope ∧ scopes.binds found name := by
  constructor
  · intro h
    refine ⟨?_, binds_of_resolve h⟩
    induction scope using Nat.strongRecOn with
    | ind scope ih =>
        by_cases hbinds : scopes.binds scope name
        · rw [resolve_of_binds hbinds] at h
          exact Option.some.inj h ▸ .here
        · rw [resolve_of_not_binds hbinds, hbuilt.outer?_eq_link?] at h
          obtain ⟨outer, hlink, hfound⟩ := Option.bind_eq_some_iff.mp h
          exact .outward hlink hbinds (ih outer (hbuilt.link_lt hlink) hfound)
  · rintro ⟨hsees, hbinds⟩
    induction hsees with
    | here => exact resolve_of_binds hbinds
    | outward hlink hfree _ ih =>
        rw [resolve_of_not_binds hfree, hbuilt.outer?_eq_link?, hlink, Option.bind_some, ih]

theorem contains_iff_get? : scopes.contains scope name ↔
    ∃ value, scopes.get? scope name = some value := by
  rw [contains, Option.isSome_iff_ne_none, Ne, ← get?_eq_none, ← Ne, Option.ne_none_iff_exists']

end Lookup

theorem Built.sets_define {scopes : Scopes} (hbuilt : scopes.Built) {scope : ScopeId}
    (hscope : scope < scopes.size) (name : String) (value : Value) :
    Sets scope name value scopes (scopes.define scope name value) := by
  have hafter : (scopes.define scope name value).Built := hbuilt.define hscope name value
  have hown : ∀ id key, (scopes.define scope name value).own? id key =
      if scope = id ∧ name = key then some value else scopes.own? id key := by
    intro id key
    simp only [own?_define, hscope, and_true]
  refine ⟨size_define .., fun id => link?_define .., hown, fun id hsees => ?_,
    fun id key hunseen => ?_⟩
  · have hself : (scopes.define scope name value).get? scope name = some value := by
      have hvalue : (scopes.define scope name value).own? scope name = some value := by simp [hown]
      rw [get?_of_binds (by rw [binds, hvalue]; rfl), hvalue]
    induction hsees with
    | here => exact hself
    | @outward id outer hlink hfree _ ih =>
        by_cases hsame : scope = id
        · exact hsame ▸ hself
        · have hfree' : ¬(scopes.define scope name value).binds id name := by
            simpa only [binds, hown, hsame, false_and, if_false] using hfree
          rw [hafter.get?_of_not_binds hfree', link?_define, hlink, Option.bind_some, ih]
  · -- going outward, the slot is not met before the name is found
    induction id using Nat.strongRecOn with
    | ind id ih =>
        have hsame : (scopes.define scope name value).own? id key = scopes.own? id key := by
          rw [hown, if_neg]
          rintro ⟨rfl, rfl⟩
          exact hunseen rfl .here
        by_cases hbinds : scopes.binds id key
        · have hbinds' : (scopes.define scope name value).binds id key := by
            rwa [binds, hsame]
          rw [get?_of_binds hbinds', get?_of_binds hbinds, hsame]
        · have hbinds' : ¬(scopes.define scope name value).binds id key := by
            rwa [binds, hsame]
          rw [hafter.get?_of_not_binds hbinds', hbuilt.get?_of_not_binds hbinds, link?_define]
          cases hlink : scopes.link? id with
          | none => rfl
          | some outer =>
              refine ih outer (hbuilt.link_lt hlink) fun hkey hsees => ?_
              exact hunseen hkey (.outward hlink (hkey ▸ hbinds) hsees)

end Scopes

/-- The laws of scopes, in every forest that comes about by making scopes, defining names and
assigning to them. A name is bound at a scope just when it has a value there, if only the value
`nothing`, and just when it can be assigned to. An assignment that fails changes nothing. One that
succeeds sets the nearest slot of the name, and a definition sets a slot of the scope itself;
either is seen by the lookups that come to the slot before they find the name elsewhere, and by no
others. -/
theorem Machine.scope_laws {machine : Machine} (h : machine.scopes.Built) (scope : ScopeId)
    (name : String) (value : Value) :
    (machine.scopes.contains scope name ↔
      ∃ found, machine.scopes.get? scope name = some found) ∧
    (machine.scopes.contains scope name ↔
      ∃ after, Run.assign scope name value machine = .ok true after) ∧
    (¬machine.scopes.contains scope name →
      Run.assign scope name value machine = .ok false machine) ∧
    (machine.scopes.contains scope name → ∃ nearest after,
      machine.scopes.Sees name nearest scope ∧ machine.scopes.binds nearest name ∧
        (∀ id, machine.scopes.resolve id name = some nearest ↔
          machine.scopes.Sees name nearest id) ∧
        Run.assign scope name value machine = .ok true { machine with scopes := after } ∧
        Scopes.Sets nearest name value machine.scopes after) ∧
    (scope < machine.scopes.size →
      Scopes.Sets scope name value machine.scopes (machine.scopes.define scope name value)) := by
  have hdefine (hscope : scope < machine.scopes.size) := h.sets_define hscope name value
  refine ⟨Scopes.contains_iff_get?, ?_⟩
  cases hresolve : machine.scopes.resolve scope name with
  | none =>
      have hunbound : ¬machine.scopes.contains scope name := by simp [Scopes.contains, hresolve]
      have hassign : Run.assign scope name value machine = .ok false machine := by
        rw [Run.assign_eq, Scopes.assign?, hresolve]
      refine ⟨⟨fun hbound => absurd hbound hunbound, ?_⟩, fun _ => hassign,
        fun hbound => absurd hbound hunbound, hdefine⟩
      rintro ⟨after, hafter⟩
      rw [hassign] at hafter
      cases hafter
  | some nearest =>
      have hbound : machine.scopes.contains scope name := by simp [Scopes.contains, hresolve]
      have hassign : Run.assign scope name value machine = .ok true
          { machine with scopes := machine.scopes.define nearest name value } := by
        rw [Run.assign_eq, Scopes.assign?, hresolve]
      obtain ⟨hsees, hbinds⟩ := h.resolve_eq_some_iff.mp hresolve
      have hthere (id : ScopeId) : machine.scopes.resolve id name = some nearest ↔
          machine.scopes.Sees name nearest id :=
        h.resolve_eq_some_iff.trans (and_iff_left hbinds)
      exact ⟨⟨fun _ => ⟨_, hassign⟩, fun _ => hbound⟩, fun hunbound => absurd hbound hunbound,
        fun _ => ⟨nearest, _, hsees, hbinds, hthere, hassign,
          h.sets_define (Scopes.lt_size_of_binds hbinds) name value⟩, hdefine⟩

/-- A scope that binds a name to no value, two scopes inside it, of which the first hides the name,
and one more inside the second. -/
def family : Scopes :=
  let root := Scopes.empty.addRoot.1.define 0 "n" .nothing
  let first := (root.addInside 0).1.define 1 "n" (.bool false)
  ((first.addInside 0).1.addInside 2).1

theorem family_built : family.Built := by
  have hroot := Scopes.Built.empty.addRoot.define (Nat.lt_succ_self 0) "n" .nothing
  have hinner := hroot.addInside (Nat.lt_succ_self 0)
  have hfirst := hinner.define (Nat.lt_succ_self 1) "n" (.bool false)
  exact (hfirst.addInside (Nat.zero_lt_succ 1)).addInside (Nat.lt_succ_self 2)

/-- An assignment from the innermost scope is seen from the scope around it, and from where the name
is hidden it is not. -/
theorem family_assigned :
    let machine := { Machine.new .unbounded (fun _ => 0) with scopes := family }
    machine.scopes.Built ∧ machine.scopes.contains 3 "n" ∧ ∃ after,
      Run.assign 3 "n" (.bool true) machine = .ok true { machine with scopes := after } ∧
        after.get? 2 "n" = some (.bool true) ∧ after.get? 1 "n" = some (.bool false) := by
  intro machine
  have hlaws := @Machine.scope_laws machine family_built 3 "n" (.bool true)
  have hbound : machine.scopes.contains 3 "n" := by decide +kernel
  obtain ⟨nearest, after, hsees, hbinds, hthere, hassign, hsets⟩ := hlaws.2.2.2.1 hbound
  have hnearest : family.resolve 3 "n" = some 0 := by decide +kernel
  obtain rfl : 0 = nearest := Option.some.inj (hnearest.symm.trans ((hthere 3).mpr hsees))
  have hhides : family.binds 1 "n" := by decide +kernel
  refine ⟨family_built, hbound, after, hassign,
    hsets.seen 2 (.outward rfl (by decide +kernel) .here), ?_⟩
  rw [hsets.unseen 1 "n" fun _ hhidden => ?_]
  · exact Scopes.get?_of_binds hhides
  · cases hhidden with
    | outward _ hfree _ => exact hfree hhides

end Scriptlet
