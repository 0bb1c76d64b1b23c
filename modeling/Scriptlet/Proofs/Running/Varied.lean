import Mathlib.Data.List.Forall2
import Scriptlet.Proofs.Operators
import Scriptlet.Proofs.Running
import Scriptlet.Proofs.Scopes.Alike
import Scriptlet.Proofs.Tree.Names

/-! Machines that differ only in labels: in where their functions were written, and in the made-up
names of functions. Only a closure knows a place, and made-up names are looked up by nobody; so such
machines find the same scopes, and their values are compared and added alike. -/

namespace Scriptlet

/-- How labels may differ: the trees of one machine are changed in one of these ways, and its
made-up names are renamed. Only known names are names of functions. -/
structure Variation where
  changes : Relabel → Prop
  rename : String → String
  known : String → Prop
  injective : Function.Injective rename
  unnamed : ∀ {change : Relabel}, changes change → change.unnamed = rename
  known_of_fixed : ∀ {name : String}, rename name = name → known name

namespace Variation

/-- The plain names of the nodes stay, and the names of functions are known. -/
def Suits (v : Variation) (nodes : List Node) : Prop :=
  Fixes v.rename nodes ∧ ∀ decl, .fn decl ∈ nodes → v.known decl.name

variable {v : Variation} {node : Node} {nodes first second : List Node}

theorem suits_cons : v.Suits (node :: nodes) ↔ ((∀ name ∈ node.plainNames, v.rename name = name) ∧
    ∀ decl, node = .fn decl → v.known decl.name) ∧ v.Suits nodes := by
  simp only [Suits, fixes_cons, List.mem_cons]
  constructor
  · rintro ⟨⟨hplain, hfixes⟩, hknown⟩
    exact ⟨⟨hplain, fun decl h => hknown decl (.inl h.symm)⟩, hfixes,
      fun decl h => hknown decl (.inr h)⟩
  · rintro ⟨⟨hplain, hnode⟩, hfixes, hknown⟩
    exact ⟨⟨hplain, hfixes⟩, fun decl h => h.elim (fun h => hnode decl h.symm) (hknown decl)⟩

theorem suits_append : v.Suits (first ++ second) ↔ v.Suits first ∧ v.Suits second := by
  simp only [Suits, fixes_append, List.mem_append]
  constructor
  · rintro ⟨⟨hfirst, hsecond⟩, hknown⟩
    exact ⟨⟨hfirst, fun decl h => hknown decl (.inl h)⟩, hsecond,
      fun decl h => hknown decl (.inr h)⟩
  · rintro ⟨⟨hfirst, hleft⟩, hsecond, hright⟩
    exact ⟨⟨hfirst, hsecond⟩, fun decl h => h.elim (hleft decl) (hright decl)⟩

end Variation

/-- The same function with other labels. -/
inductive Callable.Varied (v : Variation) : Callable → Callable → Prop
  | builtin (builtin : Builtin) : Varied v (.builtin builtin) (.builtin builtin)
  | closure {identity : Nat} {name : String} {change : Relabel} {decl : FnDecl} {scope : ScopeId}
      (hchange : v.changes change) (hsuits : v.Suits decl.nodes) (hname : v.known name) :
      Varied v (.closure ⟨identity, v.rename name, decl.relabel change, scope⟩)
        (.closure ⟨identity, name, decl, scope⟩)

inductive Value.Varied (v : Variation) : Value → Value → Prop
  | plain {value : Value} (h : value.kind ≠ .function) : Varied v value value
  | function {callable callable' : Callable} (h : callable.Varied v callable') :
      Varied v (.function callable) (.function callable')

/-- The same text, but for the names of functions that are printed in it. -/
inductive SameText (v : Variation) : String → String → Prop
  | same (text : String) : SameText v text text
  | function {name : String} (h : v.known name) :
      SameText v s!"<fn {v.rename name}>" s!"<fn {name}>"
  | append {first first' second second' : String} (hfirst : SameText v first first')
      (hsecond : SameText v second second') : SameText v (first ++ second) (first' ++ second')

/-- The same scopes with the same values, but for labels. A scope that binds a made-up name binds
it under its other name. -/
structure Scopes.Varied (v : Variation) (scopes scopes' : Scopes) : Prop where
  size : scopes.size = scopes'.size
  outer : ∀ scope, scopes.outer? scope = scopes'.outer? scope
  own : ∀ scope name,
    Option.Rel (Value.Varied v) (scopes.own? scope (v.rename name)) (scopes'.own? scope name)
  only : ∀ scope name, scopes.binds scope name → ∃ name', v.rename name' = name

/-- Machines in the same state, but for labels, what was printed and what was observed. -/
structure Machine.Varied (v : Variation) (machine machine' : Machine) : Prop where
  scopes : machine.scopes.Varied v machine'.scopes
  nextIdentity : machine.nextIdentity = machine'.nextIdentity
  depth : machine.depth = machine'.depth
  clock : machine.clock = machine'.clock
  readings : machine.readings = machine'.readings

inductive Stop.Varied (v : Variation) : Stop → Stop → Prop
  | fault {change : Relabel} {fault : RuntimeFault} {span : Span} (h : v.changes change) :
      Varied v (.fault ⟨fault, change.span span⟩) (.fault ⟨fault, span⟩)
  | outOfFuel : Varied v .outOfFuel .outOfFuel

section Machines

variable {v : Variation} {machine machine' : Machine}

theorem Machine.Varied.of_events (h : machine.Varied v machine') (events events' : Array Event) :
    { machine with events := events }.Varied v { machine' with events := events' } :=
  ⟨h.scopes, h.nextIdentity, h.depth, h.clock, h.readings⟩

theorem Machine.Varied.of_output (h : machine.Varied v machine') (output output' : Output) :
    { machine with output := output }.Varied v { machine' with output := output' } :=
  ⟨h.scopes, h.nextIdentity, h.depth, h.clock, h.readings⟩

end Machines

theorem FnDecl.relabel_params (decl : FnDecl) (change : Relabel) :
    (decl.relabel change).params = decl.params.map (Param.relabel change) := by
  cases decl
  rfl

theorem FnDecl.relabel_body (decl : FnDecl) (change : Relabel) :
    (decl.relabel change).body = decl.body.map (Stmt.relabel change) := by
  cases decl
  simp [relabel]

theorem FnDecl.relabel_anonymous (decl : FnDecl) (change : Relabel) :
    (decl.relabel change).anonymous = decl.anonymous := by
  cases decl
  rfl

section Values

variable {v : Variation} {value value' left left' right right' : Value}

theorem Variation.Suits.fixes_name {decl : FnDecl} (h : v.Suits decl.nodes)
    (hnamed : decl.anonymous = false) : v.rename decl.name = decl.name :=
  h.1 _ decl.mem_nodes _ (by simp [Node.plainNames, hnamed])

theorem Variation.Suits.fixes_param {decl : FnDecl} (h : v.Suits decl.nodes) :
    ∀ param ∈ decl.params, v.rename param.name = param.name := by
  intro param hmem
  refine h.1 _ decl.mem_nodes _ ?_
  simp only [Node.plainNames, List.mem_append]
  exact .inl (List.mem_map_of_mem hmem)

theorem Variation.Suits.body {decl : FnDecl} (h : v.Suits decl.nodes) :
    v.Suits (Stmt.allNodes decl.body) := by
  rw [FnDecl.nodes_eq] at h
  exact (suits_cons.mp h).2

theorem FnDecl.relabel_name {decl : FnDecl} {change : Relabel} (hchange : v.changes change)
    (h : v.Suits decl.nodes) : (decl.relabel change).name = v.rename decl.name := by
  have hfixed := h.fixes_name
  obtain ⟨name, anonymous, params, result, body, mark⟩ := decl
  cases anonymous with
  | true => exact congrFun (v.unnamed hchange) name
  | false => exact (hfixed rfl).symm

theorem Callable.Varied.arity_eq {callable callable' : Callable} (h : callable.Varied v callable') :
    callable.arity = callable'.arity := by
  cases h with
  | builtin => rfl
  | closure => simp [arity, FnDecl.relabel_params]

theorem Callable.Varied.text {callable callable' : Callable} (h : callable.Varied v callable') :
    SameText v callable.text callable'.text := by
  cases h with
  | builtin => exact .same _
  | closure _ _ hname => exact .function hname

theorem Value.Varied.toText (h : value.Varied v value') :
    SameText v value.toText value'.toText := by
  cases h with
  | plain => exact .same _
  | function h => exact h.text

theorem SameText.eq_of_fixed {text text' : String} (h : SameText v text text')
    (hfixed : ∀ name, v.known name → v.rename name = name) : text = text' := by
  induction h with
  | same => rfl
  | function hname => rw [hfixed _ hname]
  | append _ _ hfirst hsecond => rw [hfirst, hsecond]

theorem SameText.join {args args' : List Value} (h : List.Forall₂ (Value.Varied v) args args') :
    SameText v (String.join (args.map Value.toText)) (String.join (args'.map Value.toText)) := by
  have hjoin : ∀ {text text'}, SameText v text text' →
      SameText v ((args.map Value.toText).foldl (· ++ ·) text)
        ((args'.map Value.toText).foldl (· ++ ·) text') := by
    induction h with
    | nil => exact id
    | cons harg _ ih => exact fun htext => ih (htext.append harg.toText)
  exact hjoin (.same "")

theorem Value.Varied.of_function {callable : Callable}
    (h : (Value.function callable).Varied v value') :
    ∃ callable', value' = .function callable' ∧ callable.Varied v callable' := by
  cases h with
  | plain h => exact absurd rfl h
  | function h => exact ⟨_, rfl, h⟩

theorem Value.Varied.eq_of_kind (h : value.Varied v value') (hkind : value.kind ≠ .function) :
    value = value' := by
  cases h with
  | plain => rfl
  | function => exact absurd rfl hkind

theorem Callable.Varied.same {f f' : Callable} (h : f.Varied v f') : f.same f' := by
  cases h <;> simp [Callable.same]

theorem Value.Varied.resembles (h : value.Varied v value') : value.Resembles value' := by
  cases h with
  | plain hkind => exact .plain hkind
  | function h => exact .function h.same

end Values

section Scopes

variable {v : Variation} {scopes scopes' : Scopes} {value value' : Value} {name : String}

theorem Scopes.Varied.alike (h : scopes.Varied v scopes') :
    scopes.Alike (Value.Varied v) v.rename scopes' :=
  ⟨h.size, h.outer, h.own⟩

theorem Scopes.Varied.resolve_eq (h : scopes.Varied v scopes') (scope : ScopeId)
    (hname : v.rename name = name) : scopes.resolve scope name = scopes'.resolve scope name := by
  have hresolve := h.alike.resolve_eq scope name
  rwa [hname] at hresolve

theorem Scopes.Varied.get? (h : scopes.Varied v scopes') (scope : ScopeId)
    (hname : v.rename name = name) :
    Option.Rel (Value.Varied v) (scopes.get? scope name) (scopes'.get? scope name) := by
  have hget := h.alike.get? scope name
  rwa [hname] at hget

theorem Scopes.Varied.define_renamed (h : scopes.Varied v scopes') (scope : ScopeId)
    (name : String) (hvalue : value.Varied v value') :
    (scopes.define scope (v.rename name) value).Varied v (scopes'.define scope name value') := by
  obtain ⟨hsize, houter, hown⟩ := h.alike.define v.injective scope name hvalue
  refine ⟨hsize, houter, hown, fun other key hbinds => ?_⟩
  rw [Scopes.binds, Scopes.own?_define] at hbinds
  split at hbinds
  · rename_i hsame
    exact ⟨name, hsame.2.1⟩
  · exact h.only other key hbinds

theorem Scopes.Varied.define (h : scopes.Varied v scopes') (scope : ScopeId)
    (hname : v.rename name = name) (hvalue : value.Varied v value') :
    (scopes.define scope name value).Varied v (scopes'.define scope name value') := by
  have hdefine := h.define_renamed scope name hvalue
  rwa [hname] at hdefine

theorem Scopes.Varied.addInside (h : scopes.Varied v scopes') (outer : ScopeId) :
    (scopes.addInside outer).1.Varied v (scopes'.addInside outer).1 := by
  obtain ⟨hsize, houter, hown⟩ := h.alike.addInside outer
  refine ⟨hsize, houter, hown, fun other key hbinds => ?_⟩
  exact h.only other key (by simpa [Scopes.binds] using hbinds)

theorem Scopes.Varied.defineParams (h : scopes.Varied v scopes') (scope : ScopeId)
    {params : List Param} (hparams : ∀ param ∈ params, v.rename param.name = param.name)
    (change : Relabel) {args args' : List Value}
    (hargs : List.Forall₂ (Value.Varied v) args args') :
    (scopes.defineParams scope (params.map (Param.relabel change)) args).Varied v
      (scopes'.defineParams scope params args') := by
  unfold Scopes.defineParams
  induction hargs generalizing params scopes scopes' with
  | nil => simpa using h
  | cons harg _ ih =>
      cases params with
      | nil => simpa using h
      | cons param params =>
          obtain ⟨hparam, hothers⟩ := List.forall_mem_cons.mp hparams
          exact ih (h.define scope hparam harg) hothers

end Scopes

end Scriptlet
