import Mathlib.Data.List.SplitLengths
import Scriptlet.Proofs.Names.Script

/-! Which binding a name means in a run, against the scope in which the checker found it. The
two agree until a scope in between gets a binding of the same name. That can happen only behind
a function that was made before, for the scopes of the function itself have nothing but what the
checker knew. -/

namespace Scriptlet

/-- A name that is looked for in the scopes of a run: to read it, or to assign to it once the
value is there. -/
structure Lookup where
  name : String
  span : Span
  scope : ScopeId
  scopes : Scopes

def Moment.lookup? : Moment → Option Lookup
  | ⟨_ + 1, .evaluate scope (.variable name mark), machine⟩ =>
      some ⟨name, mark.span, scope, machine.scopes⟩
  | ⟨fuel + 1, .evaluate scope (.assign name value mark), machine⟩ =>
      match Run.evaluate fuel scope value machine with
      | .ok _ after => some ⟨name, mark.span, scope, after.scopes⟩
      | .error .. => none
  | _ => none

def Program.lookups (program : Program) (fuel : Nat) (machine : Machine) : List Lookup :=
  (program.moments fuel machine).filterMap Moment.lookup?

namespace Lookup

/-- The scope whose binding is read or changed. -/
def resolved? (lookup : Lookup) : Option ScopeId := lookup.scopes.resolve lookup.scope lookup.name

def path (lookup : Lookup) : List ScopeId := lookup.scopes.path lookup.scope

end Lookup

namespace Use

variable (use : Use) (lookup : Lookup)

/-- Whether the checker came by the use where the run came by the lookup. -/
def isAt : Prop := use.name = lookup.name ∧ use.span = lookup.span

instance : Decidable (use.isAt lookup) := inferInstanceAs (Decidable (_ ∧ _))

/-- The scopes of the run, going outward, as instances of the checker's scopes. -/
def instances : List (List ScopeId) := use.place.sizes.splitLengths lookup.path

def depth : Nat := (use.place.checker.depth? use.name).getD use.place.checker.scopes.length

/-- The instance of the scope in which the checker found the name. -/
def found : List ScopeId := (use.instances lookup).getD use.depth []

/-- The instances of the scopes that are nearer than the one in which the checker found it. -/
def nearer : List ScopeId := ((use.instances lookup).take use.depth).flatten

/-- The scopes that the running function has opened itself, for its call and for its blocks. -/
def own : List ScopeId := ((use.instances lookup).take use.place.own).filterMap List.head?

end Use

theorem splitLengths_flatten {α : Type} (groups : List (List α)) :
    (groups.map List.length).splitLengths groups.flatten = groups := by
  induction groups with
  | nil => rfl
  | cons group rest ih => simp [ih]

section Site

variable {missed : String → Prop} {scopes : Scopes} {site : Site} {scope : ScopeId}

theorem Tight.has {own : Nat} {instances : List (List ScopeId)} {levels : List (Bindings Ty)}
    (h : Tight scopes own instances levels) {name : String} {id : ScopeId}
    (hid : id ∈ (instances.take own).filterMap List.head?) (hbinds : scopes.binds id name) :
    ∃ (index : Nat) (level : Bindings Ty) (ids : List ScopeId), levels[index]? = some level ∧
      level.has name ∧ instances[index]? = some ids ∧ id ∈ ids := by
  induction h with
  | outer => simp at hid
  | own names rest ih =>
      simp only [List.take_succ_cons, List.filterMap_cons, List.head?_cons] at hid
      rcases List.mem_cons.mp hid with rfl | hid
      · exact ⟨0, _, _, rfl, names name hbinds, rfl, List.mem_cons_self⟩
      · obtain ⟨index, level, ids, hlevel, hhas, hids, hmem⟩ := ih hid
        exact ⟨index + 1, level, ids, hlevel, hhas, hids, hmem⟩

theorem Site.Holds.nodup (h : site.Holds missed scopes scope) : site.instances.flatten.Nodup := by
  rw [← h.path]
  exact (Scopes.pairwise_path scopes scope).imp fun hlt => Nat.ne_of_gt hlt

/-- What is found is in the first instance that binds the name. -/
theorem Site.Holds.resolve_eq (h : site.Holds missed scopes scope) (depth : Nat) (name : String) :
    scopes.resolve scope name =
      ((site.instances.take depth).flatten.find? (scopes.binds · name)).or
        ((site.instances.drop depth).flatten.find? (scopes.binds · name)) := by
  rw [Scopes.resolve_eq_find?, h.path, ← List.find?_append, ← List.flatten_append,
    List.take_append_drop]

theorem Site.Holds.not_own (h : site.Holds missed scopes scope) {name : String} {depth : Nat}
    (hdepth : site.place.checker.depth? name = some depth) {id : ScopeId}
    (hid : id ∈ (site.instances.take depth).flatten) (hbinds : scopes.binds id name) :
    id ∉ (site.instances.take site.place.own).filterMap List.head? := by
  intro hown
  obtain ⟨index, level, ids, hlevel, hhas, hids, hmem⟩ := h.tight.has hown hbinds
  obtain ⟨hlt, _, hfirst⟩ := List.findIdx?_eq_some_iff_getElem.mp hdepth
  have hindex : depth ≤ index := by
    by_contra hless
    have hlt' : index < depth := Nat.lt_of_not_le hless
    have hnot := hfirst index hlt'
    rw [List.getElem?_eq_getElem (Nat.lt_trans hlt' hlt)] at hlevel
    rw [Option.some.inj hlevel] at hnot
    exact hnot hhas
  have hbehind : id ∈ (site.instances.drop depth).flatten := by
    refine List.mem_flatten.mpr ⟨ids, List.mem_of_getElem? (i := index - depth) ?_, hmem⟩
    rw [List.getElem?_drop, Nat.add_sub_cancel' hindex, hids]
  have hnodup := h.nodup
  rw [← List.take_append_drop depth site.instances, List.flatten_append] at hnodup
  exact (List.nodup_append.mp hnodup).2.2 id hid id hbehind rfl

/-- A name is bound in the instance of its scope. That instance is the one that counts just as
long as no nearer one binds the name as well, and one that does is not the running function's. -/
theorem Site.Holds.resolved (h : site.Holds (fun _ => False) scopes scope) {name : String} {ty : Ty}
    (found : site.place.checker.lookup name = some ty) :
    ∃ (depth : Nat) (ids : List ScopeId) (resolved : ScopeId),
      site.place.checker.depth? name = some depth ∧ site.instances[depth]? = some ids ∧
        scopes.resolve scope name = some resolved ∧
          (resolved ∈ ids ↔
            ∀ id ∈ (site.instances.take depth).flatten, ¬scopes.binds id name) ∧
          (resolved ∉ ids → resolved ∈ (site.instances.take depth).flatten ∧
            resolved ∉ (site.instances.take site.place.own).filterMap List.head?) := by
  obtain ⟨depth, hdepth, hcovered⟩ := h.instance_of_lookup found
  obtain ⟨ids, hids, id, hid, hbinds⟩ := hcovered.resolve_left fun h => h
  have hids' := List.getElem?_eq_some_iff.mp hids
  have hdrop : (site.instances.drop depth).flatten =
      ids ++ (site.instances.drop (depth + 1)).flatten := by
    rw [List.drop_eq_getElem_cons hids'.1, hids'.2, List.flatten_cons]
  have hdisjoint : ∀ other ∈ (site.instances.take depth).flatten, other ∉ ids := by
    intro other hother hmem
    have hnodup := h.nodup
    rw [← List.take_append_drop depth site.instances, List.flatten_append, hdrop] at hnodup
    exact (List.nodup_append.mp hnodup).2.2 other hother other (List.mem_append_left _ hmem) rfl
  have hresolve := h.resolve_eq depth name
  cases hnear : (site.instances.take depth).flatten.find? (scopes.binds · name) with
  | none =>
      -- No nearer instance binds the name, so what is found is in its own.
      have hnone : ∀ other ∈ (site.instances.take depth).flatten, ¬scopes.binds other name :=
        List.find?_eq_none.mp hnear
      have hsome : (ids.find? (scopes.binds · name)).isSome :=
        List.find?_isSome.mpr ⟨id, hid, hbinds⟩
      obtain ⟨resolved, hresolved⟩ := Option.isSome_iff_exists.mp hsome
      rw [hnear, Option.none_or, hdrop, List.find?_append, hresolved] at hresolve
      have hmem := List.mem_of_find?_eq_some hresolved
      exact ⟨depth, ids, resolved, hdepth, hids, hresolve, iff_of_true hmem hnone,
        fun hnot => absurd hmem hnot⟩
  | some resolved =>
      have hmem := List.mem_of_find?_eq_some hnear
      have hbound := List.find?_some hnear
      rw [hnear, Option.some_or] at hresolve
      refine ⟨depth, ids, resolved, hdepth, hids, hresolve, ?_, fun _ => ?_⟩
      · exact iff_of_false (hdisjoint resolved hmem) fun hnone => hnone resolved hmem hbound
      · exact ⟨hmem, h.not_own hdepth hmem hbound⟩

theorem Site.Holds.finds (h : site.Holds (fun _ => False) scopes scope) {name : String} {ty : Ty}
    (found : site.place.checker.lookup name = some ty) (span : Span) :
    let use : Use := ⟨name, span, site.place⟩
    let lookup : Lookup := ⟨name, span, scope, scopes⟩
    (use.instances lookup).flatten = lookup.path ∧
      ∃ resolved, lookup.resolved? = some resolved ∧
        (resolved ∈ use.found lookup ↔ ∀ id ∈ use.nearer lookup, ¬scopes.binds id name) ∧
        (resolved ∉ use.found lookup →
          resolved ∈ use.nearer lookup ∧ resolved ∉ use.own lookup) := by
  intro use lookup
  obtain ⟨depth, ids, resolved, hdepth, hids, hresolved, hfoundIff, hnearOf⟩ := h.resolved found
  have hinstances : use.instances lookup = site.instances := by
    rw [Use.instances, Lookup.path, ← h.sizes, h.path]
    exact splitLengths_flatten _
  have huse : use.depth = depth := by simp [Use.depth, use, hdepth]
  have hfound : use.found lookup = ids := by
    rw [Use.found, hinstances, huse, List.getD_eq_getElem?_getD, hids, Option.getD_some]
  have hnearer : use.nearer lookup = (site.instances.take depth).flatten := by
    rw [Use.nearer, hinstances, huse]
  have hown : use.own lookup = (site.instances.take site.place.own).filterMap List.head? := by
    rw [Use.own, hinstances]
  rw [hfound, hnearer, hown, hinstances]
  exact ⟨h.path.symm, resolved, hresolved, hfoundIff, hnearOf⟩

end Site

theorem Program.moments_named {program : Program} (fresh : Fresh program.nodes)
    (accepted : (program.check .new).result = .ok ()) (output : Output) (clock : Nat → Int64)
    (fuel : Nat) :
    let checked := (program.check .new).node
    ∀ moment ∈ checked.moments fuel (Machine.new output clock), ∃ site : Site,
      moment.machine.scopes.Kept (fun _ => False) (· ∈ checked.uses) ∧
        moment.task.Named (fun _ => False) (· ∈ checked.uses) site moment.machine.scopes := by
  intro checked
  have hpre : (names (fun _ => False) (· ∈ checked.uses)).pre (Site.top .new true)
      (.executeAll Machine.globals .nothing checked.statements) (Machine.new output clock) :=
    ⟨Machine.kept_new output clock _ _, Machine.holds_new output clock _ true,
      (Program.check_typed fresh accepted).1, fun _ hmem => hmem⟩
  exact names.kept.visited fuel hpre

/-- Every name that a run reads or assigns to is bound in the instance of the scope in which the
checker found it, and that instance is the one that counts just as long as no nearer instance
binds the name as well. One that does is none that the running function has opened. -/
theorem Program.lookup_found_iff (program : Program) (fresh : Fresh program.nodes)
    (accepted : (program.check .new).result = .ok ()) (output : Output) (clock : Nat → Int64)
    (fuel : Nat) :
    let checked := (program.check .new).node
    ∀ lookup ∈ checked.lookups fuel (Machine.new output clock), ∃ use ∈ checked.uses,
      use.isAt lookup ∧ (use.instances lookup).flatten = lookup.path ∧
        ∃ resolved, lookup.resolved? = some resolved ∧
          (resolved ∈ use.found lookup ↔
            ∀ id ∈ use.nearer lookup, ¬lookup.scopes.binds id lookup.name) ∧
          (resolved ∉ use.found lookup →
            resolved ∈ use.nearer lookup ∧ resolved ∉ use.own lookup) := by
  intro checked lookup hlookup
  obtain ⟨moment, hmoment, hsome⟩ := List.mem_filterMap.mp hlookup
  obtain ⟨site, hkept, hnamed⟩ := Program.moments_named fresh accepted output clock _ _ hmoment
  unfold Moment.lookup? at hsome
  split at hsome
  · rename_i scope name mark machine
    obtain rfl := Option.some.inj hsome
    obtain ⟨hholds, ⟨ty, typed⟩, huses⟩ := hnamed
    cases typed with
    | read found slot =>
        exact ⟨_, huses _ List.mem_cons_self, ⟨rfl, rfl⟩, hholds.finds found mark.span⟩
  · rename_i fuel scope name value mark machine
    obtain ⟨hholds, ⟨ty, typed⟩, huses⟩ := hnamed
    cases hvalue : Run.evaluate fuel scope value machine with
    | error reason after => simp [hvalue] at hsome
    | ok answer after =>
        simp only [hvalue] at hsome
        obtain rfl := Option.some.inj hsome
        have hquiet := ((Task.frame fuel (.evaluate scope value) machine).of_ok hvalue).1
        cases typed with
        | assign found _ slot =>
            exact ⟨_, huses _ List.mem_cons_self, ⟨rfl, rfl⟩,
              (hholds.quiet hquiet).finds found mark.span⟩
  · simp at hsome

/-- A function is called, a scope between its body and the name's scope gets a binding of the
name, and the function is called again. -/
def lateShadow : Program :=
  .read "let x = 1 \x7b fn f() \x7b x \x7d f() let x = 2 f() \x7d"

theorem lateShadow_lookups :
    let checked := (lateShadow.check .new).node
    ∀ lookup ∈ checked.lookups 40 (Machine.new .unbounded fun _ => 0), ∃ use ∈ checked.uses,
      use.isAt lookup ∧ (use.instances lookup).flatten = lookup.path ∧
        ∃ resolved, lookup.resolved? = some resolved ∧
          (resolved ∈ use.found lookup ↔
            ∀ id ∈ use.nearer lookup, ¬lookup.scopes.binds id lookup.name) ∧
          (resolved ∉ use.found lookup →
            resolved ∈ use.nearer lookup ∧ resolved ∉ use.own lookup) :=
  Program.lookup_found_iff lateShadow (Program.read_fresh _) (by decide +kernel) .unbounded
    (fun _ => 0) 40

/-- An accepted program can read a name in a scope in which the checker did not find it. -/
theorem lateShadow_not_found :
    let checked := (lateShadow.check .new).node
    Fresh lateShadow.nodes ∧ (lateShadow.check .new).result = .ok () ∧
      ∃ lookup ∈ checked.lookups 40 (Machine.new .unbounded fun _ => 0),
        ∀ use ∈ checked.uses, use.isAt lookup →
          ¬∃ id ∈ use.found lookup, lookup.resolved? = some id := by
  decide +kernel

end Scriptlet
