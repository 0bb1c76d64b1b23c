import Scriptlet.Proofs.Names.Script
import Scriptlet.Proofs.Soundness.Run

/-! Programs whose every name has one type and whose every function returns what it promises.
The types in their slots are right. -/

namespace Scriptlet

/-- Whether a value is what a type says, as far as values show it: of a function, how many
parameters it has. -/
def Value.fits : Value → Ty → Bool
  | _, .nothing => true
  | .int _, .int | .float _, .float | .text _, .string | .bool _, .bool => true
  | .function callable, .function params _ => callable.arity = params.length
  | _, _ => false

/-- The type in the slot of an expression, and the value that it comes to at a moment. A function
literal that is bound at once is made by the binding. -/
def Moment.outcome? : Moment → Option (Ty × Value)
  | ⟨fuel, .evaluate scope expr, machine⟩ =>
      match Run.evaluate fuel scope expr machine with
      | .ok value _ => expr.mark.ty.map (·, value)
      | .error .. => none
  | ⟨_ + 1, .execute scope (.binding name _ (some (.function decl mark)) _), machine⟩ =>
      match Run.functionLiteral name decl scope machine with
      | .ok value _ => mark.ty.map (·, value)
      | .error .. => none
  | _ => none

section Sound

variable {types : Types} {value : Value} {ty : Ty}

theorem Value.Has.fits (h : value.Has types ty) : value.fits ty := by
  cases ty with
  | nothing => cases value <;> rfl
  | int =>
      obtain ⟨n, rfl⟩ := h.int
      rfl
  | float =>
      obtain ⟨x, rfl⟩ := h.float
      rfl
  | string =>
      obtain ⟨s, rfl⟩ := h.string
      rfl
  | bool =>
      obtain ⟨b, rfl⟩ := h.bool
      rfl
  | function params result =>
      obtain ⟨callable, rfl, hcallable⟩ := h.function
      simp [Value.fits, hcallable.length_params]
  | user name => exact h.user.elim

theorem Program.Careful.builtin {program : Program} (h : program.Careful) (builtin : Builtin) :
    program.types builtin.name = some builtin.signature := by
  refine Bindings.find?_of_mem (List.mem_append_left _ ?_) h.distinct
  exact List.mem_map.mpr ⟨builtin, builtin.mem_all, rfl⟩

theorem Program.Careful.within_new {program : Program} (h : program.Careful) :
    Checker.new.context.Within program.types := by
  intro name ty hknown
  obtain ⟨scope, hscope, hfound⟩ := List.exists_of_findSome?_eq_some hknown
  obtain rfl := List.mem_singleton.mp hscope
  obtain ⟨builtin, _, heq⟩ := List.mem_map.mp (Bindings.mem_of_find? hfound)
  obtain ⟨rfl, rfl⟩ := Prod.mk.inj heq
  exact h.builtin builtin

theorem Program.Careful.typed_new {program : Program} (h : program.Careful) (output : Output)
    (clock : Nat → Int64) : (Machine.new output clock).scopes.Typed program.types := by
  intro id name value hvalue ty hty
  rw [Machine.own?_new] at hvalue
  split at hvalue
  · obtain ⟨builtin, hfound, rfl⟩ := Option.map_eq_some_iff.mp hvalue
    have hname : builtin.name = name := by simpa using List.find?_some hfound
    obtain rfl : builtin.signature = ty :=
      Option.some.inj ((h.builtin builtin).symm.trans (hname ▸ hty))
    cases builtin <;> exact rfl
  · simp at hvalue

end Sound

theorem Program.typing_pre {program : Program} (fresh : Fresh program.nodes)
    (accepted : (program.check .new).result = .ok ())
    (careful : (program.check .new).node.Careful) (output : Output) (clock : Nat → Int64) :
    let checked := (program.check .new).node
    (typing checked.types).pre Checker.new.context
      (.executeAll Machine.globals .nothing checked.statements) (Machine.new output clock) :=
  ⟨careful.typed_new output clock, careful.within_new, (Program.check_typed fresh accepted).1,
    careful.good⟩

theorem Program.run_fault {program : Program} {fuel : Nat} {machine : Machine}
    {error : RuntimeError} (h : (program.run fuel machine).result = .error (.fault error)) :
    ∃ after, Run.executeAll fuel Machine.globals .nothing program.statements machine =
      .error (.fault error) after := by
  unfold run at h
  split at h
  · simp at h
  · rename_i other after hrun
    obtain rfl : other = error := by simpa using h
    exact ⟨after, hrun⟩
  · simp at h

theorem Moment.outcome_fits {types : Types} {moment : Moment} {ty : Ty} {value : Value}
    (h : (typing types).Visited moment.task moment.machine)
    (houtcome : moment.outcome? = some (ty, value)) : value.fits ty := by
  obtain ⟨context, hscopes, within, htask⟩ := h
  unfold outcome? at houtcome
  split at houtcome
  · rename_i fuel scope expr machine
    split at houtcome
    · rename_i answer after hrun
      obtain ⟨found, hslot, heq⟩ := Option.map_eq_some_iff.mp houtcome
      obtain ⟨rfl, rfl⟩ := Prod.mk.inj heq
      have hends := typing.kept.at fuel context (.evaluate scope expr) machine
        ⟨hscopes, within, htask⟩
      exact ((hends.of_ok hrun).2 _ hslot).fits
    · simp at houtcome
  · rename_i fuel scope name declared decl mark bindingMark machine
    split at houtcome
    · rename_i answer after hrun
      obtain ⟨found, hslot, heq⟩ := Option.map_eq_some_iff.mp houtcome
      obtain ⟨rfl, rfl⟩ := Prod.mk.inj heq
      obtain ⟨hstmt, good⟩ := htask
      cases hstmt with
      | binding hinit agrees bindingSlot =>
          cases hinit with
          | function hdecl slot =>
              have hends : (Run.functionLiteral name decl scope).Ends machine _ _ :=
                typing.ends_literal hscopes within (good_cons.mp good).2 hdecl name
              obtain rfl := Option.some.inj (slot.symm.trans hslot)
              exact (hends.of_ok hrun).2.fits
    · simp at houtcome
  · simp at houtcome

/-- An accepted program in which every binding has a value, every function that promises a result
returns one, every name is bound once and no two values of the type none are compared: whenever it
fails, an integer overflows, something is divided by zero or the output has no more room, and
every expression comes to values of the type in its slot only. -/
theorem Program.sound {program : Program} (fresh : Fresh program.nodes)
    (accepted : (program.check .new).result = .ok ())
    (careful : (program.check .new).node.Careful) (output : Output) (clock : Nat → Int64)
    (fuel : Nat) :
    let checked := (program.check .new).node
    (∀ error, (checked.run fuel (Machine.new output clock)).result = .error (.fault error) →
      error.fault = .overflow ∨ error.fault = .divisionByZero ∨ error.fault = .outputFull) ∧
    ∀ moment ∈ checked.moments fuel (Machine.new output clock), ∀ ty value,
      moment.outcome? = some (ty, value) → value.fits ty := by
  intro checked
  have hpre := Program.typing_pre fresh accepted careful output clock
  refine ⟨fun error hfault => ?_, fun moment hmoment ty value houtcome => ?_⟩
  · obtain ⟨after, hrun⟩ := Program.run_fault hfault
    have hleft := (typing.kept.at fuel _ _ _ hpre).of_error hrun error rfl
    -- Faults about names are left by the typing, and excluded by where names are bound.
    have hnames := names.kept.at fuel (Site.top .new false)
      (.executeAll Machine.globals .nothing checked.statements) (Machine.new output clock)
      ⟨Machine.kept_new output clock (fun _ => False) (fun _ => True),
        Machine.holds_new output clock _ false, (Program.check_typed fresh accepted).1,
        fun _ _ => trivial⟩
    have hfound := (hnames.of_error hrun).2 error
    rcases hleft with h | h | h | h
    · exact .inl h
    · exact .inr (.inl h)
    · exact .inr (.inr h)
    · obtain ⟨name, hname⟩ := RuntimeFault.isAboutName_iff.mp h
      exact (hfound name rfl hname).1.elim
  · exact Moment.outcome_fits (typing.kept.visited fuel hpre moment hmoment) houtcome

/-- A function that calls itself, and a function value that calls it. -/
def factorial : Program :=
  .read <| "fn f(n: int) -> int \x7b if n == 0 \x7b return 1 \x7d else \x7b return n * f(n - 1) " ++
    "\x7d \x7d let g = fn (m: int) -> int \x7b return f(m) \x7d g(3)"

theorem factorial_sound :
    let checked := (factorial.check .new).node
    (∀ error, (checked.run 60 (Machine.new .unbounded fun _ => 0)).result =
        .error (.fault error) →
      error.fault = .overflow ∨ error.fault = .divisionByZero ∨ error.fault = .outputFull) ∧
    ∀ moment ∈ checked.moments 60 (Machine.new .unbounded fun _ => 0), ∀ ty value,
      moment.outcome? = some (ty, value) → value.fits ty := by
  have hchecked : (factorial.check .new).result = .ok () ∧
      (factorial.check .new).node.Careful := by decide +kernel
  exact Program.sound (Program.read_fresh _) hchecked.1 hchecked.2 .unbounded (fun _ => 0) 60

end Scriptlet
