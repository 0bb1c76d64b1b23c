import Scriptlet.Proofs.Running.Mirror
import Scriptlet.Proofs.Tree.Shift

/-! Machines that differ only in where their functions were written. A closure knows the places of
its body in the source, and nothing else in a machine does; so runs of such machines print the
same. -/

namespace Scriptlet

/-- The same function, written at another place. -/
def FnDecl.Moved (decl decl' : FnDecl) : Prop :=
  ∃ bytes lines, decl = decl'.relabel (.shift bytes lines)

inductive Callable.Moved : Callable → Callable → Prop
  | builtin (builtin : Builtin) : Moved (.builtin builtin) (.builtin builtin)
  | closure {identity : Nat} {name : String} {decl decl' : FnDecl} {scope : ScopeId}
      (h : decl.Moved decl') :
      Moved (.closure ⟨identity, name, decl, scope⟩) (.closure ⟨identity, name, decl', scope⟩)

/-- The same value, but for the places of functions. -/
inductive Value.Moved : Value → Value → Prop
  | same (value : Value) : Moved value value
  | function {callable callable' : Callable} (h : callable.Moved callable') :
      Moved (.function callable) (.function callable')

structure Scopes.Moved (scopes scopes' : Scopes) : Prop where
  size : scopes.size = scopes'.size
  outer : ∀ scope, scopes.outer? scope = scopes'.outer? scope
  own : ∀ scope name, Option.Rel Value.Moved (scopes.own? scope name) (scopes'.own? scope name)

/-- Machines in the same state, but for the places of functions and what was observed. -/
structure Machine.Moved (machine machine' : Machine) : Prop where
  scopes : machine.scopes.Moved machine'.scopes
  nextIdentity : machine.nextIdentity = machine'.nextIdentity
  depth : machine.depth = machine'.depth
  output : machine.output = machine'.output
  transcript : machine.transcript = machine'.transcript
  clock : machine.clock = machine'.clock
  readings : machine.readings = machine'.readings

theorem Machine.Moved.of_events {machine machine' : Machine} (h : machine.Moved machine')
    (events events' : Array Event) :
    { machine with events }.Moved { machine' with events := events' } :=
  ⟨h.scopes, h.nextIdentity, h.depth, h.output, h.transcript, h.clock, h.readings⟩

theorem Machine.Moved.refl (machine : Machine) : machine.Moved machine where
  scopes := ⟨rfl, fun _ => rfl, fun scope name => by
    cases machine.scopes.own? scope name with
    | none => exact .none
    | some value => exact .some (.same value)⟩
  nextIdentity := rfl
  depth := rfl
  output := rfl
  transcript := rfl
  clock := rfl
  readings := rfl

theorem Machine.Moved.global? {machine machine' : Machine} (h : machine.Moved machine')
    (name : String) : Option.Rel Value.Moved (machine.global? name) (machine'.global? name) :=
  h.scopes.own Machine.globals name

def Variation.moved : Variation where
  changes change := ∃ bytes lines, change = .shift bytes lines
  rename := id
  known _ := True
  injective := Function.injective_id
  unnamed := by
    rintro change ⟨bytes, lines, rfl⟩
    rfl
  known_of_fixed _ := trivial

theorem Variation.moved_suits (nodes : List Node) : moved.Suits nodes :=
  ⟨fixes_id, fun _ _ => trivial⟩

theorem Callable.moved_iff {callable callable' : Callable} :
    callable.Moved callable' ↔ callable.Varied .moved callable' := by
  constructor
  · rintro (builtin | ⟨bytes, lines, rfl⟩)
    · exact .builtin builtin
    · exact .closure ⟨bytes, lines, rfl⟩ (Variation.moved_suits _) trivial
  · rintro (builtin | ⟨⟨bytes, lines, rfl⟩, -, -⟩)
    · exact .builtin builtin
    · exact .closure ⟨bytes, lines, rfl⟩

theorem Callable.Moved.refl (callable : Callable) : callable.Moved callable := by
  cases callable with
  | builtin builtin => exact .builtin builtin
  | closure closure => exact .closure ⟨0, 0, closure.decl.relabel_zero.symm⟩

theorem Value.moved_iff {value value' : Value} :
    value.Moved value' ↔ value.Varied .moved value' := by
  constructor
  · intro h
    cases h with
    | same =>
        cases value with
        | function callable => exact .function (Callable.moved_iff.mp (.refl callable))
        | _ => exact .plain (by simp [kind])
    | function h => exact .function (Callable.moved_iff.mp h)
  · intro h
    cases h with
    | plain => exact .same value
    | function h => exact .function (Callable.moved_iff.mpr h)

theorem Scopes.moved_iff {scopes scopes' : Scopes} :
    scopes.Moved scopes' ↔ scopes.Varied .moved scopes' := by
  have hvalues : Value.Moved = Value.Varied .moved :=
    funext fun _ => funext fun _ => propext Value.moved_iff
  constructor
  · rintro ⟨hsize, houter, hown⟩
    rw [hvalues] at hown
    exact ⟨hsize, houter, hown, fun _ name _ => ⟨name, rfl⟩⟩
  · rintro ⟨hsize, houter, hown, -⟩
    rw [← hvalues] at hown
    exact ⟨hsize, houter, hown⟩

def Comparison.moved (slack : Nat) : Comparison := .exact .moved slack fun _ _ => rfl

theorem Machine.moved_iff {machine machine' : Machine} (slack : Nat) :
    machine.Moved machine' ↔ (Comparison.moved slack).Machines machine machine' := by
  constructor
  · rintro ⟨hscopes, hidentity, hdepth, houtput, htranscript, hclock, hreadings⟩
    exact ⟨⟨Scopes.moved_iff.mp hscopes, hidentity, hdepth, hclock, hreadings⟩, houtput,
      htranscript⟩
  · rintro ⟨⟨hscopes, hidentity, hdepth, hclock, hreadings⟩, houtput, htranscript⟩
    exact ⟨Scopes.moved_iff.mpr hscopes, hidentity, hdepth, houtput, htranscript, hclock,
      hreadings⟩

end Scriptlet
