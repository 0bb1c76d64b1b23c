import Scriptlet.Proofs.Names.Place
import Scriptlet.Proofs.Running.Frame

/-! Places in a run. The way outward from a scope is cut into instances, one for every scope of
the checker, and an instance binds whatever its scope has. The instances that the running
function has made itself bind nothing else in their innermost scopes. -/

namespace Scriptlet

/-- Each instance binds the names of its scope, but for those that the top may miss. -/
inductive Covers (missed : String → Prop) (scopes : Scopes) :
    List (List ScopeId) → List (Bindings Ty) → Prop
  | top {level : Bindings Ty}
      (bound : ∀ name, level.has name → scopes.binds Machine.globals name ∨ missed name) :
      Covers missed scopes [[Machine.globals]] [level]
  | inner {id : ScopeId} {wrapper : List ScopeId} {instances : List (List ScopeId)}
      {level : Bindings Ty} {levels : List (Bindings Ty)}
      (bound : ∀ name, level.has name → ∃ other ∈ id :: wrapper, scopes.binds other name)
      (outer : Covers missed scopes instances levels) :
      Covers missed scopes ((id :: wrapper) :: instances) (level :: levels)

/-- The first instances have nothing but the names of their scopes. -/
inductive Tight (scopes : Scopes) : Nat → List (List ScopeId) → List (Bindings Ty) → Prop
  | outer {instances : List (List ScopeId)} {levels : List (Bindings Ty)} :
      Tight scopes 0 instances levels
  | own {own : Nat} {id : ScopeId} {wrapper : List ScopeId} {instances : List (List ScopeId)}
      {level : Bindings Ty} {levels : List (Bindings Ty)}
      (names : ∀ name, scopes.binds id name → level.has name)
      (rest : Tight scopes own instances levels) :
      Tight scopes (own + 1) ((id :: wrapper) :: instances) (level :: levels)

/-- A place with the scopes that it has in a run. -/
structure Site where
  place : Place
  instances : List (List ScopeId)

structure Site.Holds (site : Site) (missed : String → Prop) (scopes : Scopes)
    (scope : ScopeId) : Prop where
  lt_size : scope < scopes.size
  path : scopes.path scope = site.instances.flatten
  sizes : site.instances.map List.length = site.place.sizes
  covers : Covers missed scopes site.instances site.place.checker.scopes
  tight : Tight scopes site.place.own site.instances site.place.checker.scopes

section Holds

variable {missed missed' : String → Prop} {scopes later : Scopes} {opens : ScopeId → String → Prop}

theorem Covers.mono {instances : List (List ScopeId)} {levels : List (Bindings Ty)}
    (h : Covers missed scopes instances levels)
    (hbinds : ∀ id name, scopes.binds id name → later.binds id name)
    (hmissed : ∀ name, missed name → missed' name) : Covers missed' later instances levels := by
  induction h with
  | top bound =>
      exact .top fun name hname => (bound name hname).imp (hbinds _ _) (hmissed name)
  | inner bound _ ih =>
      refine .inner (fun name hname => ?_) ih
      obtain ⟨other, hmem, hother⟩ := bound name hname
      exact ⟨other, hmem, hbinds _ _ hother⟩

theorem Covers.bound {instances : List (List ScopeId)} {levels : List (Bindings Ty)}
    (h : Covers missed scopes instances levels) {name : String} {depth : Nat}
    {level : Bindings Ty} (hlevel : levels[depth]? = some level) (hname : level.has name) :
    missed name ∨ ∃ ids, instances[depth]? = some ids ∧ ∃ id ∈ ids, scopes.binds id name := by
  induction h generalizing depth with
  | top bound =>
      cases depth with
      | zero =>
          obtain rfl := Option.some.inj hlevel
          rcases bound name hname with hbinds | hmissed
          · exact .inr ⟨_, rfl, _, List.mem_singleton_self _, hbinds⟩
          · exact .inl hmissed
      | succ depth => simp at hlevel
  | inner bound _ ih =>
      cases depth with
      | zero =>
          obtain rfl := Option.some.inj hlevel
          exact .inr ⟨_, rfl, bound name hname⟩
      | succ depth => exact ih (by simpa using hlevel)

theorem Tight.mono {own : Nat} {instances : List (List ScopeId)} {levels : List (Bindings Ty)}
    (h : Tight scopes own instances levels)
    (hbinds : ∀ id ∈ instances.flatten, ∀ name, later.binds id name → scopes.binds id name) :
    Tight later own instances levels := by
  induction h with
  | outer => exact .outer
  | own names _ ih =>
      refine .own (fun name hname => names name (hbinds _ (by simp) name hname)) (ih ?_)
      intro id hid
      exact hbinds id (by simp [List.flatten_cons, List.mem_append] at hid ⊢; simp [hid])

theorem Covers.levels_eq {instances : List (List ScopeId)} {levels : List (Bindings Ty)}
    (h : Covers missed scopes instances levels) : ∃ level outer, levels = level :: outer := by
  cases h with
  | top => exact ⟨_, _, rfl⟩
  | inner => exact ⟨_, _, rfl⟩

section Declared

variable {scope : ScopeId} {wrapper : List ScopeId} {rest : List (List ScopeId)}
  {level level' : Bindings Ty} {levels : List (Bindings Ty)} {names : List String}

theorem Covers.declared (h : Covers missed scopes ((scope :: wrapper) :: rest) (level :: levels))
    (hhas : ∀ name, level'.has name ↔ name ∈ names ∨ level.has name)
    (hbinds : ∀ id name, scopes.binds id name → later.binds id name)
    (hnames : ∀ name ∈ names, later.binds scope name) :
    Covers missed later ((scope :: wrapper) :: rest) (level' :: levels) := by
  cases h with
  | top bound =>
      refine .top fun name hname => ?_
      rcases (hhas name).mp hname with hname | hname
      · exact .inl (hnames name hname)
      · exact (bound name hname).imp_left (hbinds _ _)
  | inner bound outer =>
      refine .inner (fun name hname => ?_) (outer.mono hbinds fun _ h => h)
      rcases (hhas name).mp hname with hname | hname
      · exact ⟨scope, List.mem_cons_self, hnames name hname⟩
      · obtain ⟨other, hmem, hother⟩ := bound name hname
        exact ⟨other, hmem, hbinds _ _ hother⟩

theorem Tight.declared {own : Nat}
    (h : Tight scopes own ((scope :: wrapper) :: rest) (level :: levels))
    (hhas : ∀ name, level'.has name ↔ name ∈ names ∨ level.has name)
    (hscope : ∀ name, later.binds scope name → scopes.binds scope name ∨ name ∈ names)
    (hrest : ∀ id ∈ rest.flatten, ∀ name, later.binds id name → scopes.binds id name) :
    Tight later own ((scope :: wrapper) :: rest) (level' :: levels) := by
  cases h with
  | outer => exact .outer
  | own bound tight =>
      refine .own (fun name hname => (hhas name).mpr ?_) (tight.mono hrest)
      rcases hscope name hname with hbefore | hdeclared
      · exact .inr (bound name hbefore)
      · exact .inl hdeclared

end Declared

namespace Site.Holds

variable {site : Site} {scope : ScopeId}

theorem mem_path (h : site.Holds missed scopes scope) {id : ScopeId}
    (hid : id ∈ site.instances.flatten) : id ≤ scope :=
  Scopes.le_of_mem_path (h.path ▸ hid)

theorem quiet (h : site.Holds missed scopes scope) (hquiet : Scopes.Quiet scopes later) :
    site.Holds missed later scope := by
  refine ⟨Nat.lt_of_lt_of_le h.lt_size hquiet.size_le, ?_, h.sizes,
    h.covers.mono hquiet.binds fun _ hname => hname, h.tight.mono fun id hid name hname => ?_⟩
  · rw [hquiet.path_eq h.lt_size, h.path]
  · have hlt := Nat.lt_of_le_of_lt (h.mem_path hid) h.lt_size
    exact (hquiet.opened id hlt name hname).resolve_right (fun h => h)

theorem instance_of_lookup (h : site.Holds missed scopes scope) {name : String} {ty : Ty}
    (found : site.place.checker.lookup name = some ty) :
    ∃ depth, site.place.checker.depth? name = some depth ∧ (missed name ∨
      ∃ ids, site.instances[depth]? = some ids ∧ ∃ id ∈ ids, scopes.binds id name) := by
  obtain ⟨depth, hdepth⟩ := Checker.depth_of_lookup found
  obtain ⟨hlt, hlevel, _⟩ := List.findIdx?_eq_some_iff_getElem.mp hdepth
  exact ⟨depth, hdepth, h.covers.bound (List.getElem?_eq_getElem hlt) hlevel⟩

end Site.Holds

theorem opens_of_isBranch : (stmt : Stmt) → {context : Context} → StmtTyped context stmt →
    stmt.isBranch → stmt.opens = []
  | .block _, _, _, _ => rfl
  | .conditional _ _ none _, _, _, _ => rfl
  | .conditional _ _ (some otherwise) _, _, h, _ => by
      cases h with
      | alternative _ _ branch hotherwise =>
          rw [Stmt.opens]
          exact opens_of_isBranch otherwise hotherwise branch

theorem StmtTyped.opens_eq {context : Context} {stmt : Stmt} (h : StmtTyped context stmt) :
    stmt.opens = stmt.declares := by
  cases h with
  | alternative _ _ branch hotherwise =>
      rw [Stmt.opens]
      exact opens_of_isBranch _ hotherwise branch
  | _ => rfl

theorem StmtTyped.scopes_after {context : Context} {stmt : Stmt} (h : StmtTyped context stmt)
    {checker : Checker} {level : Bindings Ty} {levels : List (Bindings Ty)}
    (hscopes : checker.scopes = level :: levels) :
    ∃ level', (checker.after stmt).scopes = level' :: levels ∧
      ∀ name, level'.has name ↔ name ∈ stmt.declares ∨ level.has name := by
  have hdeclare : ∀ name ty, (checker.declare name ty).scopes = level.insert name ty :: levels := by
    intro name ty
    simp [Checker.declare, hscopes]
  have hinsert : ∀ name ty key, (level.insert name ty).has key ↔ key ∈ [name] ∨ level.has key := by
    simp
  have hnone : ∀ key, level.has key ↔ key ∈ [] ∨ level.has key := by simp
  cases h with
  | uninitialized slot =>
      simp only [Checker.after, Stmt.declared?, slot]
      exact ⟨_, hdeclare _ _, hinsert _ _⟩
  | binding _ _ slot =>
      simp only [Checker.after, Stmt.declared?, slot]
      exact ⟨_, hdeclare _ _, hinsert _ _⟩
  | function hdecl =>
      simp only [Checker.after, Stmt.declared?, hdecl.slot]
      exact ⟨_, hdeclare _ _, hinsert _ _⟩
  | _ => exact ⟨level, hscopes, hnone⟩

namespace Site

def after (site : Site) (stmt : Stmt) : Site := { site with place := site.place.after stmt }

def inBlock (site : Site) (scope : ScopeId) : Site :=
  ⟨site.place.inBlock, [scope] :: site.instances⟩

end Site

namespace Site.Holds

variable {site : Site} {scope : ScopeId}

theorem instances_eq (h : site.Holds missed scopes scope) :
    ∃ wrapper rest, site.instances = (scope :: wrapper) :: rest ∧
      ∀ id ∈ rest.flatten, id < scope := by
  obtain ⟨place, instances⟩ := site
  obtain ⟨outward, hcons⟩ := Scopes.path_eq_cons scopes scope
  have hpath := hcons.symm.trans h.path
  have hpairwise := Scopes.pairwise_path scopes scope
  rw [hcons, List.pairwise_cons] at hpairwise
  have hcovers := h.covers
  generalize place.checker.scopes = levels at hcovers
  cases hcovers with
  | top =>
      obtain ⟨rfl, rfl⟩ := List.cons.inj hpath
      exact ⟨[], [], rfl, by simp⟩
  | @inner id wrapper rest =>
      obtain ⟨rfl, rfl⟩ := List.cons.inj hpath
      exact ⟨wrapper, rest, rfl, fun id hid => hpairwise.1 id (List.mem_append_right _ hid)⟩

theorem after {stmt : Stmt} (h : site.Holds missed scopes scope)
    (typed : StmtTyped site.place.context stmt)
    (hextends : scopes.Extends (Task.execute scope stmt).opens later)
    (hdeclared : ∀ name ∈ stmt.declares, later.binds scope name) :
    (site.after stmt).Holds missed later scope := by
  obtain ⟨wrapper, rest, hinstances, hrest⟩ := h.instances_eq
  obtain ⟨⟨checker, sizes, own⟩, instances⟩ := site
  obtain ⟨hlt, hpath, hsizes, hcovers, htight⟩ := h
  simp only at hinstances hcovers htight typed
  subst hinstances
  -- Of the scopes on the way outward only the first has got a name, the one that is declared.
  have hopened : ∀ id ≤ scope, ∀ name, later.binds id name →
      scopes.binds id name ∨ id = scope ∧ name ∈ stmt.declares := by
    intro id hid name hname
    have hwhere := hextends.opened id (Nat.lt_of_le_of_lt hid hlt) name hname
    rwa [Task.opens, typed.opens_eq] at hwhere
  obtain ⟨level, levels, hlevels⟩ := hcovers.levels_eq
  obtain ⟨level', hafter, hhas⟩ := typed.scopes_after hlevels
  rw [hlevels] at hcovers htight
  have hsize := Nat.lt_of_lt_of_le hlt hextends.size_le
  refine ⟨hsize, (hextends.path_eq hlt).trans hpath, hsizes, ?_, ?_⟩
  · simp only [Site.after, Place.after, hafter]
    exact hcovers.declared hhas hextends.binds hdeclared
  · simp only [Site.after, Place.after, hafter]
    refine htight.declared hhas (fun name hname => ?_) fun id hid name hname => ?_
    · exact (hopened scope (Nat.le_refl _) name hname).imp_right And.right
    · have hid := hrest id hid
      rcases hopened id (Nat.le_of_lt hid) name hname with hbefore | ⟨hscope, _⟩
      · exact hbefore
      · exact absurd hscope (Nat.ne_of_lt hid)

theorem block (h : site.Holds missed scopes scope) :
    (site.inBlock scopes.size).Holds missed (scopes.addInside scope).1 scopes.size := by
  have hquiet : scopes.Quiet (scopes.addInside scope).1 := .addInside _ _ _
  have houter := h.quiet hquiet
  refine ⟨by simp, ?_, ?_, ?_, ?_⟩
  · rw [Scopes.path_addInside h.lt_size, h.path]
    rfl
  · simp [Site.inBlock, Place.inBlock, h.sizes]
  · exact .inner (fun name hname => by simp [Bindings.has] at hname) houter.covers
  · refine .own (fun name hname => ?_) houter.tight
    simp [Scopes.binds, Scopes.own?_of_size_le] at hname

end Site.Holds

end Holds

end Scriptlet
