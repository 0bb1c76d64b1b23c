import Mathlib.Data.List.Chain
import Scriptlet.Proofs.Names.Script
import Scriptlet.Proofs.Running.Reach

/-! The way outward leads to the top. Every scope but the top stands inside one that was made before
it, and a function finds its names in a scope that there is. A run keeps both, so from whatever a
machine comes to hold, going outward ends at the top, where the built-in functions are. -/

namespace Scriptlet

/-- Going outward from the scope, link by link, ends at the top without coming to any scope twice.
This is the way on which names are looked for, and the built-in functions are found on it. -/
structure Scopes.Homeward (scopes : Scopes) (scope : ScopeId) (way : List ScopeId) : Prop where
  starts : way.head? = some scope
  links : way.IsChain fun inner outer => scopes.link? inner = some outer
  ends : way.getLast? = some Machine.globals
  top : scopes.link? Machine.globals = none
  nodup : way.Nodup
  resolve : ∀ name, scopes.resolve scope name = way.find? (scopes.binds · name)
  builtins : ∀ builtin : Builtin, scopes.contains scope builtin.name

/-- The way outward leads to the top from all the scopes, and from every function that is bound. -/
structure Scopes.AllHomeward (scopes : Scopes) (ids : List ScopeId) : Prop where
  held : ∀ id ∈ ids, ∃ way, scopes.Homeward id way
  bound : ∀ id name value, scopes.own? id name = some value →
    ∀ inner ∈ value.scope?, ∃ way, scopes.Homeward inner way

/-- All scopes are made inside earlier ones, and what is bound refers to scopes that there are. -/
structure Scopes.Grounded (scopes : Scopes) : Prop where
  size_pos : Machine.globals < scopes.size
  top : scopes.link? Machine.globals = none
  outward : ∀ id < scopes.size, id ≠ Machine.globals →
    ∃ outer < id, scopes.link? id = some outer
  bound : ∀ id name value, scopes.own? id name = some value →
    ∀ inner ∈ value.scope?, inner < scopes.size
  builtins : ∀ builtin : Builtin, scopes.binds Machine.globals builtin.name

def Scopes.allOf (scopes : Scopes) : Realm := ⟨(· < scopes.size), scopes.size⟩

theorem Scopes.has_allOf {scopes : Scopes} {size : Nat} {id : ScopeId} (h : scopes.size ≤ size) :
    scopes.allOf.Has size id ↔ id < size := by
  constructor
  · rintro (hfirst | ⟨_, hlt⟩)
    · exact Nat.lt_of_lt_of_le hfirst h
    · exact hlt
  · intro hlt
    by_cases hfirst : id < scopes.size
    · exact .inl hfirst
    · exact .inr ⟨Nat.not_lt.mp hfirst, hlt⟩

namespace Scopes.Grounded

variable {scopes before after : Scopes} {scope : ScopeId}

theorem confined (h : scopes.Grounded) : scopes.Confined scopes.allOf := by
  refine ⟨Nat.le_refl _, fun id outer hid hlink => ?_,
    fun id name value inner _ hbound hinner => ?_⟩
  · rw [has_allOf (Nat.le_refl _)] at hid ⊢
    have hne : id ≠ Machine.globals := by
      rintro rfl
      rw [h.top] at hlink
      cases hlink
    obtain ⟨same, hlt, hsame⟩ := h.outward id hid hne
    obtain rfl : same = outer := Option.some.inj (hsame.symm.trans hlink)
    exact Nat.lt_trans hlt hid
  · exact (has_allOf (Nat.le_refl _)).mpr (h.bound id name value hbound inner hinner)

theorem of_leads (h : before.Grounded) (hleads : Leads before.allOf before after) :
    after.Grounded := by
  have hhas : ∀ {id}, before.allOf.Has after.size id ↔ id < after.size :=
    has_allOf hleads.size_le
  refine ⟨Nat.lt_of_lt_of_le h.size_pos hleads.size_le, ?_, fun id hid hne => ?_,
    fun id name value hbound inner hinner => ?_, fun builtin => ?_⟩
  · rw [hleads.link _ h.size_pos, h.top]
  · by_cases hbefore : id < before.size
    · rw [hleads.link id hbefore]
      exact h.outward id hbefore hne
    · -- a new scope stands inside one that was there when it was made
      have hge := Nat.not_lt.mp hbefore
      obtain ⟨outer, hlink, hhad⟩ := hleads.made id hge hid
      exact ⟨outer, (has_allOf hge).mp hhad, hlink⟩
  · have hid : id < after.size := lt_size_of_binds (by rw [binds, hbound]; rfl)
    exact hhas.mp (hleads.confined.bound id name value inner (hhas.mpr hid) hbound hinner)
  · exact hleads.binds _ _ (h.builtins builtin)

theorem path_of_ne (h : scopes.Grounded) (hscope : scope < scopes.size)
    (hne : scope ≠ Machine.globals) :
    ∃ outer < scope, scopes.link? scope = some outer ∧
      scopes.path scope = scope :: scopes.path outer := by
  obtain ⟨outer, hlt, hlink⟩ := h.outward scope hscope hne
  exact ⟨outer, hlt, hlink, path_of_outer (outer?_of_link? hlink hlt)⟩

theorem path_top (h : scopes.Grounded) : scopes.path Machine.globals = [Machine.globals] := by
  refine path_of_root (Option.eq_none_iff_forall_ne_some.mpr fun outer houter => ?_)
  have hlink := link?_of_outer? houter
  rw [h.top] at hlink
  cases hlink

theorem links_path (h : scopes.Grounded) (hscope : scope < scopes.size) :
    (scopes.path scope).IsChain fun inner outer => scopes.link? inner = some outer := by
  induction scope using Nat.strongRecOn with
  | ind scope ih =>
      by_cases hne : scope = Machine.globals
      · rw [hne, h.path_top]
        exact .singleton _
      · obtain ⟨outer, hlt, hlink, hpath⟩ := h.path_of_ne hscope hne
        have hchain := ih outer hlt (Nat.lt_trans hlt hscope)
        obtain ⟨outward, houtward⟩ := path_eq_cons scopes outer
        rw [houtward] at hchain hpath
        rw [hpath]
        exact .cons_cons hlink hchain

theorem getLast?_path (h : scopes.Grounded) (hscope : scope < scopes.size) :
    (scopes.path scope).getLast? = some Machine.globals := by
  induction scope using Nat.strongRecOn with
  | ind scope ih =>
      by_cases hne : scope = Machine.globals
      · rw [hne, h.path_top]
        rfl
      · obtain ⟨outer, hlt, _, hpath⟩ := h.path_of_ne hscope hne
        obtain ⟨outward, houtward⟩ := path_eq_cons scopes outer
        have hlast := ih outer hlt (Nat.lt_trans hlt hscope)
        rw [houtward] at hlast hpath
        rw [hpath, List.getLast?_cons_cons, hlast]

theorem homeward (h : scopes.Grounded) (hscope : scope < scopes.size) :
    scopes.Homeward scope (scopes.path scope) := by
  have hlast := h.getLast?_path hscope
  refine ⟨?_, h.links_path hscope, hlast, h.top, ?_, fun name => resolve_eq_find? scopes scope name,
    fun builtin => ?_⟩
  · obtain ⟨outward, houtward⟩ := path_eq_cons scopes scope
    rw [houtward]
    rfl
  · exact (pairwise_path scopes scope).imp fun hgt => Nat.ne_of_gt hgt
  · rw [contains, resolve_eq_find?]
    exact List.find?_isSome.mpr
      ⟨Machine.globals, List.mem_of_getLast? hlast, h.builtins builtin⟩

theorem allHomeward (h : scopes.Grounded) {ids : List ScopeId}
    (hids : ∀ id ∈ ids, id < scopes.size) : scopes.AllHomeward ids :=
  ⟨fun id hid => ⟨_, h.homeward (hids id hid)⟩,
    fun id name value hbound inner hinner =>
      ⟨_, h.homeward (h.bound id name value hbound inner hinner)⟩⟩

end Scopes.Grounded

theorem Machine.grounded_new (output : Output) (clock : Nat → Int64) :
    (Machine.new output clock).scopes.Grounded := by
  refine ⟨?_, ?_, fun id hid hne => ?_, fun id name value hbound inner hinner => ?_,
    fun builtin => ?_⟩
  · rw [Machine.scopes_new]
    exact Nat.one_pos
  · rw [Machine.scopes_new]
    rfl
  · rw [Machine.scopes_new] at hid
    exact absurd (Nat.lt_one_iff.mp hid) hne
  · rw [Machine.own?_new] at hbound
    split at hbound
    · obtain ⟨builtin, _, rfl⟩ := Option.map_eq_some_iff.mp hbound
      cases hinner
    · cases hbound
  · rw [Scopes.binds, Machine.own?_new, if_pos rfl]
    cases builtin <;> rfl

section Runs

variable {machine : Machine}

theorem Task.grounded (fuel : Nat) (task : Task) (h : machine.scopes.Grounded)
    (hatHand : ∀ id ∈ task.atHand, id < machine.scopes.size) :
    (task.run fuel).Ends machine
      (fun answer after => after.scopes.Grounded ∧ machine.scopes.size ≤ after.scopes.size ∧
        ∀ id ∈ (task.answers answer).filterMap Value.scope?, id < after.scopes.size)
      (fun _ after => after.scopes.Grounded ∧ machine.scopes.size ≤ after.scopes.size) := by
  refine (Task.leads fuel task machine h.confined fun id hid =>
    (Scopes.has_allOf (Nat.le_refl _)).mpr (hatHand id hid)).mono (fun answer after hpost => ?_)
    fun _ after hleads => ⟨h.of_leads hleads, hleads.size_le⟩
  obtain ⟨hleads, hanswers⟩ := hpost
  refine ⟨h.of_leads hleads, hleads.size_le, fun id hid => ?_⟩
  obtain ⟨value, hvalue, hscope⟩ := List.mem_filterMap.mp hid
  exact (Scopes.has_allOf hleads.size_le).mp (hanswers value hvalue id hscope)

theorem Program.run_grounded (program : Program) (fuel : Nat) (h : machine.scopes.Grounded) :
    (program.run fuel machine).machine.scopes.Grounded := by
  have hends := Task.grounded fuel (.executeAll Machine.globals .nothing program.statements) h
    fun id hid => List.mem_singleton.mp hid ▸ h.size_pos
  unfold run
  cases hrun : Run.executeAll fuel Machine.globals .nothing program.statements machine with
  | ok flow after => exact (hends.of_ok hrun).1
  | error reason after =>
      have hstop := hends.of_error hrun
      cases reason <;> exact hstop.1

theorem Machine.runAll_grounded (programs : List (Nat × Program)) (h : machine.scopes.Grounded) :
    (machine.runAll programs).scopes.Grounded := by
  induction programs generalizing machine with
  | nil => exact h
  | cons program rest ih => exact ih (program.2.run_grounded program.1 h)

theorem Program.grounded_moments (program : Program) (fuel : Nat) (h : machine.scopes.Grounded) :
    ∀ moment ∈ program.moments fuel machine, moment.machine.scopes.Grounded ∧
      ∀ id ∈ moment.task.atHand, id < moment.machine.scopes.size := by
  have hbegins : (reach machine.scopes.allOf machine.scopes).pre ()
      (.executeAll Machine.globals .nothing program.statements) machine :=
    ⟨.refl h.confined, fun id hid => List.mem_singleton.mp hid ▸ .inl h.size_pos⟩
  intro moment hmoment
  obtain ⟨_, hleads, hatHand⟩ := reach.kept.visited fuel hbegins moment hmoment
  exact ⟨h.of_leads hleads, fun id hid => (Scopes.has_allOf hleads.size_le).mp (hatHand id hid)⟩

/-- Programs that are run one after another on a machine that was fresh at first, however each of
them ended, and one more. At every moment of it, and however what is done at that moment ends, going
outward leads to the top: from the scope in use and from whatever is at hand, from the functions
that are bound anywhere, and from those that it comes to. -/
theorem Machine.scopes_lead_home (output : Output) (clock : Nat → Int64)
    (programs : List (Nat × Program)) (program : Program) (fuel : Nat) :
    ∀ moment ∈ program.moments fuel ((Machine.new output clock).runAll programs),
      moment.machine.scopes.AllHomeward moment.task.atHand ∧
      (moment.task.run moment.fuel).Ends moment.machine
        (fun answer after => after.scopes.AllHomeward
          (moment.task.atHand ++ (moment.task.answers answer).filterMap Value.scope?))
        (fun _ after => after.scopes.AllHomeward moment.task.atHand) := by
  intro moment hmoment
  have hbefore := Machine.runAll_grounded programs (Machine.grounded_new output clock)
  obtain ⟨hgrounded, hatHand⟩ := program.grounded_moments fuel hbefore moment hmoment
  refine ⟨hgrounded.allHomeward hatHand, ?_⟩
  refine (Task.grounded moment.fuel moment.task hgrounded hatHand).mono (fun answer after h => ?_)
    fun _ after h => h.1.allHomeward fun id hid => Nat.lt_of_lt_of_le (hatHand id hid) h.2
  obtain ⟨hafter, hsize, hanswers⟩ := h
  refine hafter.allHomeward fun id hid => ?_
  rcases List.mem_append.mp hid with hid | hid
  · exact Nat.lt_of_lt_of_le (hatHand id hid) hsize
  · exact hanswers id hid

end Runs

/-- A program that is given up, and one that comes to a function made within a call. -/
def maker : List (Nat × Program) × Program :=
  ([(9, .read "clock = missing")],
    .read "fn make(x) \x7b return fn() \x7b x \x7d \x7d make(print)")

/-- From the function that is made, going outward leads to the top by way of the call. -/
theorem maker_leads_home :
    let machine := (Machine.new .unbounded fun _ => 0).runAll maker.1
    ∃ flow after,
      Run.executeAll 20 Machine.globals .nothing maker.2.statements machine = .ok flow after ∧
        flow.value.scope? = some 1 ∧ ∃ way, after.scopes.Homeward 1 way := by
  intro machine
  have hends := (Machine.scopes_lead_home .unbounded (fun _ => 0) maker.1 maker.2 20
    ⟨20, .executeAll Machine.globals .nothing maker.2.statements, machine⟩ List.mem_cons_self).2
  have hmade : (match Run.executeAll 20 Machine.globals .nothing maker.2.statements machine with
      | .ok flow _ => flow.value.scope?
      | .error _ _ => none) = some 1 := by decide +kernel
  cases hrun : Run.executeAll 20 Machine.globals .nothing maker.2.statements machine with
  | ok flow after =>
      have hscope : flow.value.scope? = some 1 := by simpa only [hrun] using hmade
      refine ⟨flow, after, rfl, hscope, (hends.of_ok hrun).held 1 ?_⟩
      exact List.mem_append_right _ (List.mem_filterMap.mpr ⟨_, List.mem_singleton_self _, hscope⟩)
  | error reason after =>
      rw [hrun] at hmade
      cases hmade

end Scriptlet
