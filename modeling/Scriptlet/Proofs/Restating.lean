import Scriptlet.Proofs.Running.Restated

/-! Declaring a function and binding its name to a function literal come to the same. A function
that is bound at once is called by the name of the binding and sees it, as a declared one does; so
programs that differ only in this cannot be told apart by what they print, by their calls, by their
errors or by their values. -/

namespace Scriptlet

def Event.call? : Event → Option (String × Nat)
  | called name depth => some (name, depth)
  | _ => none

def Machine.calls (machine : Machine) : List (String × Nat) :=
  machine.events.toList.filterMap Event.call?

inductive Outcome.Restated (places : Span → Span → Prop) :
    Except Stop Value → Except Stop Value → Prop
  | ok {value value' : Value} (h : value.Restated places value') :
      Outcome.Restated places (.ok value) (.ok value')
  | error {reason reason' : Stop} (h : reason.Restated places reason') :
      Outcome.Restated places (.error reason) (.error reason')

/-- Ends of runs that cannot be told apart. -/
structure Ended.Restated (places : Span → Span → Prop) (ended ended' : Ended) : Prop where
  output : ended.machine.output = ended'.machine.output
  calls : ended.machine.calls = ended'.machine.calls
  result : Outcome.Restated places ended.result ended'.result
  globals : ∀ name, Option.Rel (Value.Restated places) (ended.machine.global? name)
    (ended'.machine.global? name)
  /-- Whatever is run next on the one machine can be run on the other. -/
  machine : ended.machine.Restated places ended'.machine

section Machines

variable {places : Span → Span → Prop} {machine machine' : Machine}

theorem Event.Restated.call?_eq {event event' : Event} (h : event.Restated places event') :
    event.call? = event'.call? := by
  cases h <;> rfl

theorem Machine.Restated.calls_eq (h : machine.Restated places machine') :
    machine.calls = machine'.calls := by
  have hevents := h.events
  unfold calls
  generalize machine.events.toList = events at hevents ⊢
  generalize machine'.events.toList = events' at hevents ⊢
  induction hevents with
  | nil => rfl
  | cons hevent _ ih => rw [List.filterMap_cons, List.filterMap_cons, hevent.call?_eq, ih]

theorem Machine.Restated.ended (h : machine.Restated places machine')
    {result result' : Except Stop Value} (hresult : Outcome.Restated places result result') :
    Ended.Restated places ⟨machine, result⟩ ⟨machine', result'⟩ where
  output := h.output
  calls := h.calls_eq
  result := hresult
  globals name := h.scopes.own Machine.globals name
  machine := h

theorem Machine.Restated.aborted (h : machine.Restated places machine') {fault : RuntimeFault}
    {span span' : Span} (hplaces : places span span') :
    { machine with events := machine.events.push (.aborted ⟨fault, span⟩) }.Restated places
      { machine' with events := machine'.events.push (.aborted ⟨fault, span'⟩) } := by
  refine { h with events := ?_ }
  rw [Array.toList_push, Array.toList_push]
  exact List.rel_append h.events (.cons (.aborted hplaces) .nil)

end Machines

section Itself

variable {places : Span → Span → Prop} (hplaces : ∀ span, places span span)

include hplaces

theorem Value.restated_refl (value : Value) : value.Restated places value := by
  cases value with
  | function callable =>
      cases callable with
      | builtin builtin => exact .function (.builtin builtin)
      | closure closure => exact .function (.closure rfl (Stmt.restated_refl_all hplaces _))
  | _ => exact .plain (by simp [Value.kind])

theorem Machine.restated_refl (machine : Machine) : machine.Restated places machine where
  scopes := {
    size := rfl
    outer := fun _ => rfl
    own := fun scope name => by
      show Option.Rel _ (machine.scopes.own? scope name) _
      cases machine.scopes.own? scope name with
      | none => exact .none
      | some value => exact .some (value.restated_refl hplaces) }
  nextIdentity := rfl
  depth := rfl
  output := rfl
  transcript := rfl
  events := List.forall₂_same.mpr fun event _ => .same event
  clock := rfl
  readings := rfl

end Itself

/-- Functions may be declared as such or bound as literals, wherever they are in a program. -/
theorem Program.run_restated {places : Span → Span → Prop} {program program' : Program}
    (h : program.Restated places program') (fuel : Nat) {machine machine' : Machine}
    (hmachine : machine.Restated places machine') :
    (program.run fuel machine).Restated places (program'.run fuel machine') := by
  have hrun := (Run.agreeing places fuel).executeAll Machine.globals .nothing h machine machine'
    hmachine
  unfold Program.run
  cases heq : Run.executeAll fuel Machine.globals .nothing program.statements machine with
  | ok flow after =>
      obtain ⟨flow', after', heq', hflow, hafter⟩ := hrun.of_ok heq
      simp only [heq']
      exact hafter.ended (.ok hflow.value)
  | error reason after =>
      obtain hfalse | ⟨reason', after', heq', hreason, hafter⟩ := hrun.of_error heq
      · exact hfalse.elim
      · simp only [heq']
        cases hreason with
        | fault hplaces => exact (hafter.aborted hplaces).ended (.error (.fault hplaces))
        | outOfFuel => exact hafter.ended (.error .outOfFuel)

/-- A function inside of another one, which prints and calls it. -/
def Program.innerFunction (state : FnDecl → Stmt) : Program :=
  let mark : Mark := { span := ⟨0, 0, 1⟩ }
  let inner : FnDecl :=
    ⟨"g", false, [], none, [.ret (some (.variable "n" mark)) mark.span], mark⟩
  let outer : FnDecl :=
    ⟨"f", false, [⟨"n", none, mark.span⟩], none,
      [state inner, .expression (.call (.variable "println" mark) [.variable "g" mark] mark),
        .ret (some (.call (.variable "g" mark) [] mark)) mark.span], mark⟩
  ⟨[state outer, .expression (.call (.variable "f" mark) [.literal (.int 2) mark] mark)]⟩

theorem Program.innerFunction_restated :
    (innerFunction .function).Restated Eq (innerFunction fun decl => decl.bound "fn@0") := by
  have hrest : ∀ stmts : List Stmt, List.Forall₂ (Stmt.Restated Eq) stmts stmts :=
    Stmt.restated_refl_all fun _ => rfl
  refine .cons (.restated rfl rfl rfl (.cons ?inner (hrest _))) (hrest _)
  exact FnDecl.restated_bound (fun _ => rfl) rfl "fn@0"

theorem Program.run_innerFunction_restated :
    (innerFunction .function).Restated Eq (innerFunction fun decl => decl.bound "fn@0") ∧
      ((innerFunction .function).run 20 (.new .unbounded fun _ => 0)).Restated Eq
        ((innerFunction fun decl => decl.bound "fn@0").run 20 (.new .unbounded fun _ => 0)) ∧
      ((innerFunction .function).run 20 (.new .unbounded fun _ => 0)).machine.calls =
        [("f", 1), ("g", 2)] :=
  ⟨innerFunction_restated,
    run_restated innerFunction_restated 20 (Machine.restated_refl (fun _ => rfl) _),
    by decide +kernel⟩

end Scriptlet
