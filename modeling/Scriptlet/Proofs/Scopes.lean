import Scriptlet.Scope

/-! The way outward from a scope, and what a run can do to the scopes that are already there:
they stay where they are and keep every name that they bind. -/

namespace Scriptlet

namespace Scopes

def path (scopes : Scopes) (scope : ScopeId) : List ScopeId :=
  scope ::
    match h : scopes.outer? scope with
    | some outer =>
        have := outer?_lt h
        path scopes outer
    | none => []
termination_by scope

theorem path_eq_cons (scopes : Scopes) (scope : ScopeId) :
    ∃ outward, scopes.path scope = scope :: outward := by
  rw [path]
  exact ⟨_, rfl⟩

theorem path_of_outer {scopes : Scopes} {scope outer : ScopeId}
    (h : scopes.outer? scope = some outer) : scopes.path scope = scope :: scopes.path outer := by
  rw [path]
  split <;> simp_all

theorem path_of_root {scopes : Scopes} {scope : ScopeId} (h : scopes.outer? scope = none) :
    scopes.path scope = [scope] := by
  rw [path]
  split <;> simp_all

theorem resolve_eq_find? (scopes : Scopes) (scope : ScopeId) (name : String) :
    scopes.resolve scope name = (scopes.path scope).find? (scopes.binds · name) := by
  induction scope using Nat.strongRecOn with
  | ind scope ih =>
      rw [resolve_eq]
      cases houter : scopes.outer? scope with
      | none =>
          rw [path_of_root houter]
          by_cases h : scopes.binds scope name <;> simp [h]
      | some outer =>
          rw [path_of_outer houter]
          by_cases h : scopes.binds scope name
          · simp [h]
          · simp [h, ih outer (outer?_lt houter)]

theorem le_of_mem_path {scopes : Scopes} {scope id : ScopeId} (h : id ∈ scopes.path scope) :
    id ≤ scope := by
  induction scope using Nat.strongRecOn with
  | ind scope ih =>
      cases houter : scopes.outer? scope with
      | none =>
          rw [path_of_root houter] at h
          exact Nat.le_of_eq (List.mem_singleton.mp h)
      | some outer =>
          rw [path_of_outer houter] at h
          have hlt := outer?_lt houter
          rcases List.mem_cons.mp h with rfl | h
          · exact Nat.le_refl _
          · exact Nat.le_trans (ih outer hlt h) (Nat.le_of_lt hlt)

theorem pairwise_path (scopes : Scopes) (scope : ScopeId) :
    (scopes.path scope).Pairwise (· > ·) := by
  induction scope using Nat.strongRecOn with
  | ind scope ih =>
      cases houter : scopes.outer? scope with
      | none => simp [path_of_root houter]
      | some outer =>
          rw [path_of_outer houter, List.pairwise_cons]
          have hlt := outer?_lt houter
          exact ⟨fun id hid => Nat.lt_of_le_of_lt (le_of_mem_path hid) hlt, ih outer hlt⟩

theorem outer?_addInside (scopes : Scopes) (outer scope : ScopeId) :
    (scopes.addInside outer).1.outer? scope =
      if scope = scopes.size then (if outer < scope then some outer else none)
      else scopes.outer? scope := by
  by_cases h : scope = scopes.all.size
  · simp [addInside, outer?, size, h]
  · simp [addInside, outer?, size, Array.getElem?_push, h]

def defineParams (scopes : Scopes) (scope : ScopeId) (params : List Param) (args : List Value) :
    Scopes :=
  (params.zip args).foldl (fun scopes entry => scopes.define scope entry.1.name entry.2) scopes

/-- The scopes once a call has one, inside the scope in which the function was made. -/
def enter (scopes : Scopes) (outer : ScopeId) (params : List Param) (args : List Value) : Scopes :=
  (scopes.addInside outer).1.defineParams scopes.size params args

def enclose (scopes : Scopes) (outer : ScopeId) (name : String) (value : Value) : Scopes :=
  (scopes.addInside outer).1.define scopes.size name value

theorem binds_define {scopes : Scopes} {scope : ScopeId} (h : scope < scopes.size)
    (name key : String) (value : Value) :
    (scopes.define scope name value).binds scope key ↔ key = name ∨ scopes.binds scope key := by
  simp only [binds, own?_define]
  by_cases hname : name = key
  · simp [hname, h]
  · simp [hname, Ne.symm hname]

theorem binds_defineParams {scopes : Scopes} {scope : ScopeId} {params : List Param}
    {args : List Value} (h : scope < scopes.size) (hlength : args.length = params.length)
    (name : String) :
    (scopes.defineParams scope params args).binds scope name ↔
      scopes.binds scope name ∨ ∃ param ∈ params, param.name = name := by
  unfold defineParams
  induction params generalizing args scopes with
  | nil => simp
  | cons param params ih =>
      cases args with
      | nil => simp at hlength
      | cons arg args =>
          have hsize : scope < (scopes.define scope param.name arg).size := by simpa using h
          rw [List.zip_cons_cons, List.foldl_cons, ih hsize (Nat.succ.inj hlength), binds_define h]
          simp only [List.mem_cons, or_and_right, exists_or, exists_eq_left]
          rw [or_left_comm, ← or_assoc, eq_comm, or_comm (a := param.name = name), or_assoc]

theorem own?_defineParams {scopes : Scopes} {scope : ScopeId} {params : List Param}
    {args : List Value} {id : ScopeId} {name : String} {value : Value}
    (h : (scopes.defineParams scope params args).own? id name = some value) :
    scopes.own? id name = some value ∨
      ∃ entry ∈ params.zip args, name = entry.1.name ∧ value = entry.2 := by
  unfold defineParams at h
  generalize params.zip args = entries at h ⊢
  induction entries generalizing scopes with
  | nil => exact .inl h
  | cons entry rest ih =>
      rcases ih h with hbefore | ⟨other, hmem, hother⟩
      · rw [own?_define] at hbefore
        split at hbefore
        · rename_i hsame
          exact .inr ⟨entry, List.mem_cons_self, hsame.2.1.symm, (Option.some.inj hbefore).symm⟩
        · exact .inl hbefore
      · exact .inr ⟨other, List.mem_cons_of_mem _ hmem, hother⟩

theorem binds_enter (scopes : Scopes) (outer : ScopeId) {params : List Param} {args : List Value}
    (hlength : args.length = params.length) (name : String) :
    (scopes.enter outer params args).binds scopes.size name ↔
      ∃ param ∈ params, param.name = name := by
  rw [enter, binds_defineParams (by simp) hlength]
  simp [binds, own?_of_size_le]

theorem own?_enter {scopes : Scopes} {outer : ScopeId} {params : List Param} {args : List Value}
    {id : ScopeId} {name : String} {value : Value}
    (h : (scopes.enter outer params args).own? id name = some value) :
    scopes.own? id name = some value ∨
      ∃ entry ∈ params.zip args, name = entry.1.name ∧ value = entry.2 :=
  (own?_defineParams h).imp_left fun hbefore => by simpa using hbefore

def Hold (property : Value → Prop) (scopes : Scopes) : Prop :=
  ∀ id name value, scopes.own? id name = some value → property value

namespace Hold

variable {property : Value → Prop} {scopes : Scopes} {value : Value}

theorem get? (h : scopes.Hold property) {scope : ScopeId} {name : String}
    (hget : scopes.get? scope name = some value) : property value := by
  obtain ⟨nearest, _, hown⟩ := Option.bind_eq_some_iff.mp hget
  exact h nearest name value hown

theorem define (h : scopes.Hold property) (hvalue : property value) (scope : ScopeId)
    (name : String) : (scopes.define scope name value).Hold property := by
  intro id key found hfound
  rw [own?_define] at hfound
  split at hfound
  · exact Option.some.inj hfound ▸ hvalue
  · exact h id key found hfound

theorem addInside (h : scopes.Hold property) (outer : ScopeId) :
    (scopes.addInside outer).1.Hold property := by
  intro id key found hfound
  rw [own?_addInside] at hfound
  exact h id key found hfound

theorem enclose (h : scopes.Hold property) (hvalue : property value) (outer : ScopeId)
    (name : String) : (scopes.enclose outer name value).Hold property :=
  (h.addInside outer).define hvalue scopes.size name

theorem enter (h : scopes.Hold property) {args : List Value} (hargs : ∀ arg ∈ args, property arg)
    (outer : ScopeId) (params : List Param) : (scopes.enter outer params args).Hold property := by
  intro id key found hfound
  rcases own?_enter hfound with hbefore | ⟨entry, hmem, rfl, rfl⟩
  · exact h id key found hbefore
  · exact hargs entry.2 (List.of_mem_zip hmem).2

end Hold

/-- Scopes grow only by new scopes, and by new names as far as `opens` has them. -/
structure Extends (opens : ScopeId → String → Prop) (before after : Scopes) : Prop where
  size_le : before.size ≤ after.size
  outer : ∀ id < before.size, after.outer? id = before.outer? id
  binds : ∀ id name, before.binds id name → after.binds id name
  opened : ∀ id < before.size, ∀ name, after.binds id name → before.binds id name ∨ opens id name

abbrev Quiet : Scopes → Scopes → Prop := Extends fun _ _ => False

namespace Extends

variable {opens opens' : ScopeId → String → Prop} {before middle after : Scopes}

theorem refl (opens : ScopeId → String → Prop) (scopes : Scopes) : Extends opens scopes scopes :=
  ⟨Nat.le_refl _, fun _ _ => rfl, fun _ _ h => h, fun _ _ _ h => .inl h⟩

theorem trans (h : Extends opens before middle) (h' : Extends opens' middle after)
    (hopens : ∀ id < before.size, ∀ name, opens' id name → opens id name) :
    Extends opens before after := by
  refine ⟨Nat.le_trans h.size_le h'.size_le, fun id hid => ?_, fun id name hbinds => ?_,
    fun id hid name hbinds => ?_⟩
  · rw [h'.outer id (Nat.lt_of_lt_of_le hid h.size_le), h.outer id hid]
  · exact h'.binds id name (h.binds id name hbinds)
  · rcases h'.opened id (Nat.lt_of_lt_of_le hid h.size_le) name hbinds with hmiddle | hopened
    · exact h.opened id hid name hmiddle
    · exact .inr (hopens id hid name hopened)

theorem mono (h : Extends opens before after)
    (hopens : ∀ id < before.size, ∀ name, opens id name → opens' id name) :
    Extends opens' before after :=
  ⟨h.size_le, h.outer, h.binds,
    fun id hid name hbinds => (h.opened id hid name hbinds).imp (fun h => h) (hopens id hid name)⟩

theorem define (scopes : Scopes) (scope : ScopeId) (name : String) (value : Value) :
    Extends (fun id key => id = scope ∧ key = name) scopes (scopes.define scope name value) := by
  refine ⟨by simp, fun _ _ => by simp, fun id key hbinds => ?_, fun id hid key hbinds => ?_⟩
  · simp only [Scopes.binds, own?_define] at hbinds ⊢
    split <;> simp [hbinds]
  · by_cases hscope : scope = id
    · subst hscope
      rcases (binds_define hid name key value).mp hbinds with hname | hbefore
      · exact .inr ⟨rfl, hname⟩
      · exact .inl hbefore
    · rw [Scopes.binds, own?_define_of_ne _ _ (.inl hscope)] at hbinds
      exact .inl hbinds

theorem define_of_binds {scopes : Scopes} {scope : ScopeId} {name : String}
    (h : scopes.binds scope name) (opens : ScopeId → String → Prop) (value : Value) :
    Extends opens scopes (scopes.define scope name value) := by
  have hdefine := define scopes scope name value
  refine ⟨hdefine.size_le, hdefine.outer, hdefine.binds, fun id hid key hbinds => ?_⟩
  rcases hdefine.opened id hid key hbinds with hbefore | ⟨rfl, rfl⟩
  · exact .inl hbefore
  · exact .inl h

theorem addInside (opens : ScopeId → String → Prop) (scopes : Scopes) (outer : ScopeId) :
    Extends opens scopes (scopes.addInside outer).1 := by
  have hsame : ∀ id name, (scopes.addInside outer).1.binds id name = scopes.binds id name := by
    intro id name
    simp only [Scopes.binds, own?_addInside]
  refine ⟨by simp, fun _ hid => outer?_addInside_of_lt outer hid, fun id name h => ?_,
    fun id _ name h => .inl ?_⟩
  · rw [hsame, h]
  · rw [← hsame, h]

theorem path_eq (h : Extends opens before after) {scope : ScopeId} (hscope : scope < before.size) :
    after.path scope = before.path scope := by
  induction scope using Nat.strongRecOn with
  | ind scope ih =>
      have houter := h.outer scope hscope
      cases hbefore : before.outer? scope with
      | none => rw [path_of_root hbefore, path_of_root (houter.trans hbefore)]
      | some outer =>
          have hlt := outer?_lt hbefore
          rw [path_of_outer hbefore, path_of_outer (houter.trans hbefore),
            ih outer hlt (Nat.lt_trans hlt hscope)]

theorem defineParams (scopes : Scopes) (scope : ScopeId) (params : List Param)
    (args : List Value) :
    Extends (fun id _ => id = scope) scopes (scopes.defineParams scope params args) := by
  unfold Scopes.defineParams
  induction params.zip args generalizing scopes with
  | nil => exact .refl _ _
  | cons entry rest ih =>
      have hdefine := Extends.define scopes scope entry.1.name entry.2
      exact (hdefine.mono fun _ _ _ h => h.1).trans (ih _) fun _ _ _ h => h

theorem of_inner {outer : ScopeId} (h : Extends opens' (before.addInside outer).1 after)
    (hopens : ∀ id name, opens' id name → id = before.size) : Extends opens before after :=
  (Extends.addInside _ before outer).trans h
    fun _ hid _ hname => absurd (hopens _ _ hname) (Nat.ne_of_lt hid)

theorem enter (opens : ScopeId → String → Prop) (scopes : Scopes) (outer : ScopeId)
    (params : List Param) (args : List Value) :
    Extends opens scopes (scopes.enter outer params args) :=
  of_inner (Extends.defineParams _ _ params args) fun _ _ h => h

theorem enclose (opens : ScopeId → String → Prop) (scopes : Scopes) (outer : ScopeId)
    (name : String) (value : Value) : Extends opens scopes (scopes.enclose outer name value) :=
  of_inner (Extends.define _ _ name value) fun _ _ h => h.1

end Extends

theorem path_addInside {scopes : Scopes} {outer : ScopeId} (h : outer < scopes.size) :
    (scopes.addInside outer).1.path scopes.size = scopes.size :: scopes.path outer := by
  rw [path_of_outer (outer?_addInside_self h),
    (Extends.addInside (fun _ _ => False) scopes outer).path_eq h]

theorem lt_size_enter (scopes : Scopes) (outer : ScopeId) (params : List Param)
    (args : List Value) : scopes.size < (scopes.enter outer params args).size :=
  Nat.lt_of_lt_of_le (by simp)
    (Extends.defineParams (scopes.addInside outer).1 scopes.size params args).size_le

theorem path_enter {scopes : Scopes} {outer : ScopeId} (h : outer < scopes.size)
    (params : List Param) (args : List Value) :
    (scopes.enter outer params args).path scopes.size = scopes.size :: scopes.path outer := by
  rw [← path_addInside h]
  exact (Extends.defineParams _ _ params args).path_eq (by simp)

end Scopes

end Scriptlet
