import Scriptlet.Proofs.Names.Site

/-! What a function value needs to find the names of its body wherever it is called: it is
typed at the site at which it was made, and that site still stands. -/

namespace Scriptlet

def FnDecl.wrapper (decl : FnDecl) (visible : NameScope) (scope : ScopeId) : List ScopeId :=
  if decl.isWrapped visible then [scope] else []

def Site.inBody (site : Site) (visible : NameScope) (closure : Closure) (scope : ScopeId) : Site :=
  ⟨site.place.inBody visible closure.decl (closure.decl.params.map Param.ty),
    (scope :: closure.decl.wrapper visible closure.scope) :: site.instances⟩

structure Closure.MadeAt (missed : String → Prop) (uses : Use → Prop) (scopes : Scopes)
    (closure : Closure) (site : Site) (visible : NameScope) : Prop where
  typed : FnTyped site.place.context visible closure.decl
  mem_uses : ∀ use ∈ closure.decl.uses site.place visible, uses use
  lt_size : closure.scope < scopes.size
  path : scopes.path closure.scope =
    closure.decl.wrapper visible closure.scope ++ site.instances.flatten
  sizes : site.instances.map List.length = site.place.sizes
  covers : Covers missed scopes site.instances
    (site.place.checker.aroundBody visible closure.decl.name closure.decl.ty).scopes
  bound : closure.decl.isWrapped visible → scopes.binds closure.scope closure.decl.name

def Closure.Kept (missed : String → Prop) (uses : Use → Prop) (scopes : Scopes)
    (closure : Closure) : Prop :=
  ∃ site visible, closure.MadeAt missed uses scopes site visible

def Callable.Kept (missed : String → Prop) (uses : Use → Prop) (scopes : Scopes) :
    Callable → Prop
  | .builtin _ => True
  | .closure made => made.Kept missed uses scopes

def Value.Kept (missed : String → Prop) (uses : Use → Prop) (scopes : Scopes) : Value → Prop
  | .function callable => callable.Kept missed uses scopes
  | _ => True

/-- Every function value that is bound to a name is kept. -/
def Scopes.Kept (missed : String → Prop) (uses : Use → Prop) (scopes : Scopes) : Prop :=
  ∀ id name value, scopes.own? id name = some value → value.Kept missed uses scopes

section Kept

variable {missed missed' : String → Prop} {uses : Use → Prop} {scopes later : Scopes}
  {opens : ScopeId → String → Prop}

theorem Closure.Kept.mono {closure : Closure} (h : closure.Kept missed uses scopes)
    (hextends : scopes.Extends opens later) (hmissed : ∀ name, missed name → missed' name) :
    closure.Kept missed' uses later := by
  obtain ⟨site, visible, typed, mem_uses, lt_size, path, sizes, covers, bound⟩ := h
  refine ⟨site, visible, typed, mem_uses, Nat.lt_of_lt_of_le lt_size hextends.size_le,
    (hextends.path_eq lt_size).trans path, sizes, covers.mono hextends.binds hmissed, ?_⟩
  exact fun hwrapped => hextends.binds _ _ (bound hwrapped)

theorem Value.Kept.mono {value : Value} (h : value.Kept missed uses scopes)
    (hextends : scopes.Extends opens later) (hmissed : ∀ name, missed name → missed' name) :
    value.Kept missed' uses later := by
  match value with
  | .function (.closure closure) => exact Closure.Kept.mono h hextends hmissed
  | .function (.builtin _) | .int _ | .float _ | .text _ | .bool _ | .nothing => trivial

theorem Value.Kept.extend {value : Value} (h : value.Kept missed uses scopes)
    (hextends : scopes.Extends opens later) : value.Kept missed uses later :=
  h.mono hextends fun _ hname => hname

namespace Scopes.Kept

theorem mono (h : scopes.Kept missed uses) (hmissed : ∀ name, missed name → missed' name) :
    scopes.Kept missed' uses :=
  fun id name value hvalue =>
    (h id name value hvalue).mono (Extends.refl (fun _ _ => False) scopes) hmissed

theorem define (h : scopes.Kept missed uses) {scope : ScopeId} {name : String} {value : Value}
    (hvalue : value.Kept missed uses (scopes.define scope name value)) :
    (scopes.define scope name value).Kept missed uses := by
  intro id key found hfound
  rw [own?_define] at hfound
  split at hfound
  · exact Option.some.inj hfound ▸ hvalue
  · exact (h id key found hfound).extend (Extends.define scopes scope name value)

theorem define_kept (h : scopes.Kept missed uses) {value : Value}
    (hvalue : value.Kept missed uses scopes) (scope : ScopeId) (name : String) :
    (scopes.define scope name value).Kept missed uses :=
  h.define (hvalue.extend (Extends.define scopes scope name value))

theorem addInside (h : scopes.Kept missed uses) (outer : ScopeId) :
    (scopes.addInside outer).1.Kept missed uses := by
  intro id name value hvalue
  rw [own?_addInside] at hvalue
  exact (h id name value hvalue).extend (Extends.addInside (fun _ _ => False) scopes outer)

theorem enter (h : scopes.Kept missed uses) (outer : ScopeId) (params : List Param)
    {args : List Value} (hargs : ∀ arg ∈ args, arg.Kept missed uses scopes) :
    (scopes.enter outer params args).Kept missed uses := by
  have hextends := Extends.enter (fun _ _ => False) scopes outer params args
  intro id name value hvalue
  rcases own?_enter hvalue with hbefore | ⟨entry, hmem, _, rfl⟩
  · exact (h id name value hbefore).extend hextends
  · exact (hargs _ (List.of_mem_zip hmem).2).extend hextends

end Scopes.Kept

/-- A call finds the names of the body: the parameters and the name of a literal in the scopes
of the call, and all others where the function was made. -/
theorem Closure.MadeAt.enter {closure : Closure} {site : Site} {visible : NameScope}
    {args : List Value} (h : closure.MadeAt missed uses scopes site visible)
    (hlength : args.length = closure.decl.params.length) :
    (site.inBody visible closure scopes.size).Holds missed
      (scopes.enter closure.scope closure.decl.params args) scopes.size := by
  obtain ⟨_, _, lt_size, path, sizes, covers, bound⟩ := h
  have htypes : (closure.decl.params.map Param.ty).length = closure.decl.params.length :=
    List.length_map _
  have hhas := has_bodyScope visible closure.decl closure.decl.ty htypes
  have hextends := Scopes.Extends.enter (fun _ _ => False) scopes closure.scope
    closure.decl.params args
  have hparam := Scopes.binds_enter scopes closure.scope hlength
  refine ⟨?_, ?_, ?_, ?_, ?_⟩
  · exact Scopes.lt_size_enter ..
  · rw [Scopes.path_enter lt_size, path]
    rfl
  · unfold Site.inBody Place.inBody FnDecl.wrapper
    cases closure.decl.isWrapped visible <;> simp [sizes]
  · refine .inner (fun name hname => ?_) (covers.mono hextends.binds fun _ h => h)
    rcases (hhas name).mp hname with hname | ⟨hwrapped, rfl⟩
    · exact ⟨_, List.mem_cons_self, (hparam name).mpr hname⟩
    · refine ⟨closure.scope, ?_, hextends.binds _ _ (bound hwrapped)⟩
      simp [FnDecl.wrapper, hwrapped]
  · exact .own (fun name hname => (hhas name).mpr (.inl ((hparam name).mp hname))) .outer

section Made

variable {site : Site} {scope : ScopeId} {decl : FnDecl}

theorem Site.Holds.anonymous (h : site.Holds missed scopes scope)
    (typed : FnTyped site.place.context .inside decl)
    (huses : ∀ use ∈ decl.uses site.place .inside, uses use) (hanonymous : decl.anonymous)
    (identity : Nat) (name : String) :
    (Value.function (.closure ⟨identity, name, decl, scope⟩)).Kept missed uses scopes := by
  have hwrapped : decl.isWrapped .inside = false := by simp [FnDecl.isWrapped, hanonymous]
  refine ⟨site, .inside, typed, huses, h.lt_size, ?_, h.sizes, h.covers, ?_⟩
  · simp [FnDecl.wrapper, hwrapped, h.path]
  · simp [hwrapped]

theorem Site.Holds.enclosed (h : site.Holds missed scopes scope)
    (typed : FnTyped site.place.context .inside decl)
    (huses : ∀ use ∈ decl.uses site.place .inside, uses use) (hanonymous : ¬decl.anonymous)
    (identity : Nat) (name : String) (value : Value) :
    (Value.function (.closure ⟨identity, name, decl, scopes.size⟩)).Kept missed uses
      (scopes.enclose scope decl.name value) := by
  have hwrapped : decl.isWrapped .inside = true := by simp [FnDecl.isWrapped, hanonymous]
  have hextends := Scopes.Extends.enclose (fun _ _ => False) scopes scope decl.name value
  refine ⟨site, .inside, typed, huses, ?_, ?_, h.sizes,
    h.covers.mono hextends.binds fun _ hname => hname, fun _ => ?_⟩
  · simp [Scopes.enclose]
  · have hinner := Scopes.path_addInside h.lt_size
    have hdefine := Scopes.Extends.define (scopes.addInside scope).1 scopes.size decl.name value
    rw [Scopes.enclose, hdefine.path_eq (by simp), hinner, h.path]
    simp [FnDecl.wrapper, hwrapped]
  · exact (Scopes.binds_define (by simp) _ _ _).mpr (.inl rfl)

theorem Site.Holds.declared (h : site.Holds missed scopes scope)
    (typed : FnTyped site.place.context .around decl)
    (huses : ∀ use ∈ decl.uses site.place .around, uses use) (identity : Nat) (value : Value) :
    (Value.function (.closure ⟨identity, decl.name, decl, scope⟩)).Kept missed uses
      (scopes.define scope decl.name value) := by
  have hextends : scopes.Extends (Task.execute scope (.function decl)).opens
      (scopes.define scope decl.name value) :=
    (Scopes.Extends.define scopes scope decl.name value).mono fun _ _ _ hname =>
      ⟨hname.1, List.mem_singleton.mpr hname.2⟩
  have hafter : (site.after (.function decl)).Holds missed (scopes.define scope decl.name value)
      scope := by
    refine h.after (.function typed) hextends fun name hname => ?_
    exact (Scopes.binds_define h.lt_size _ _ _).mpr (.inl (List.mem_singleton.mp hname))
  refine ⟨site, .around, typed, huses, hafter.lt_size, hafter.path, h.sizes, ?_, nofun⟩
  have hcovers := hafter.covers
  simpa [Site.after, Place.after, Checker.after, Stmt.declared?, typed.slot,
    Checker.aroundBody] using hcovers

theorem Scopes.Kept.enclose (h : scopes.Kept missed uses) {name : String} {value : Value}
    (hvalue : value.Kept missed uses (scopes.enclose scope name value)) :
    (scopes.enclose scope name value).Kept missed uses :=
  (h.addInside scope).define hvalue

end Made

end Kept

end Scriptlet
