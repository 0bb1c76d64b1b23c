import Scriptlet.Proofs.Grounded
import Scriptlet.Proofs.Running.Account

/-! The depth of calls. A machine counts how deep calls are nested, and every way out of a call
counts back; so whatever a run comes to, the count is what it was before. What can be observed of a
call tells how many others it is made in. -/

namespace Scriptlet

/-- The calls of the script's functions that go on during the parts of a task, if these go on around
it; the innermost comes first. -/
def Task.amid (around : List Closure) : Task → List Closure
  | .call (.closure closure) _ _ => closure :: around
  | _ => around

def Task.momentsAmid : Nat → List Closure → Task → Machine → List (List Closure × Moment)
  | 0, around, task, machine => [(around, ⟨0, task, machine⟩)]
  | fuel + 1, around, task, machine =>
      (around, ⟨fuel + 1, task, machine⟩) :: (task.parts fuel machine).flatMap fun part =>
        momentsAmid fuel (task.amid around) part.task part.machine

theorem Task.map_momentsAmid (fuel : Nat) (around : List Closure) (task : Task)
    (machine : Machine) :
    (task.momentsAmid fuel around machine).map Prod.snd = task.moments fuel machine := by
  induction fuel generalizing around task machine with
  | zero => rfl
  | succ fuel ih => simp only [momentsAmid, moments, List.map_cons, List.map_flatMap, ih]

namespace Moment

/-- The function whose call begins at a moment. A call that gets no fuel does not begin. -/
def callee? (moment : Moment) : Option Closure :=
  match moment.fuel, moment.task with
  | _ + 1, .call (.closure closure) _ _ => some closure
  | _, _ => none

def called? (moment : Moment) : Option Event :=
  moment.callee?.map fun callee => .called callee.name (moment.machine.depth + 1)

def calls (moment : Moment) : List Event :=
  (moment.task.moments moment.fuel moment.machine).filterMap called?

def callsOf (fuel : Nat) (parts : List Moment) : List Event :=
  parts.flatMap fun part => calls ⟨fuel, part.task, part.machine⟩

end Moment

namespace Run

variable {α β : Type}

/-- However the run ends, it is back at the depth at which it began, and these events have been
observed. -/
def Observes (events : List Event) (run : Run α) (machine : Machine) : Prop :=
  run.Ends machine
    (fun _ after => after.depth = machine.depth ∧
      after.events.toList = machine.events.toList ++ events)
    (fun _ after => after.depth = machine.depth ∧
      after.events.toList = machine.events.toList ++ events)

section Observes

variable {machine : Machine} {events : List Event} {run : Run α}

theorem observes_hidden (h : Hidden run) : Observes [] run machine :=
  (h.ends machine).mono (fun _ _ hlooks => ⟨hlooks.depth, by simp [hlooks.events]⟩)
    fun _ _ hlooks => ⟨hlooks.depth, by simp [hlooks.events]⟩

theorem observes_bind {next : α → Run β} {rest : α → Machine → List Event}
    (hrun : Observes events run machine)
    (hnext : ∀ value after, run machine = .ok value after →
      Observes (rest value after) (next value) after) :
    Observes (events ++ match run machine with
      | .ok value after => rest value after
      | .error .. => []) (run >>= next) machine := by
  refine ends_bind.mpr ?_
  cases hresult : run machine with
  | ok value after =>
      obtain ⟨hdepth, hevents⟩ := hrun.of_ok hresult
      have hbehind := hnext value after hresult
      simp only [Observes, hdepth, hevents, List.append_assoc] at hbehind
      simpa only [Ends, hresult] using hbehind
  | error reason after =>
      simpa only [Ends, hresult, List.append_nil] using hrun.of_error hresult

theorem observes_nested {name : String} (h : Observes events run (machine.entered name)) :
    Observes (.called name (machine.depth + 1) :: events) (nested name run) machine := by
  have hentered : (machine.entered name).events.toList =
      machine.events.toList ++ [.called name (machine.depth + 1)] := by simp [Machine.entered]
  have hleft : ∀ after : Machine, after.depth = (machine.entered name).depth ∧
      after.events.toList = (machine.entered name).events.toList ++ events →
      after.left.depth = machine.depth ∧ after.left.events.toList =
        machine.events.toList ++ .called name (machine.depth + 1) :: events := by
    rintro after ⟨hdepth, hevents⟩
    rw [hentered, List.append_assoc] at hevents
    exact ⟨by rw [Machine.left, hdepth]; exact Nat.add_sub_cancel _ _, hevents⟩
  exact ends_nested.mpr (h.mono (fun _ after => hleft after) fun _ after => hleft after)

theorem observes_applyBuiltin (builtin : Builtin) (args : List Value) (span : Span) :
    Observes [] (applyBuiltin builtin args span) machine := by
  have hemit : ∀ text, Observes [] (emit text span) machine := by
    intro text
    refine ends_emit.mpr ?_
    split <;> exact ⟨rfl, (List.append_nil _).symm⟩
  cases builtin with
  | clock => exact observes_hidden hidden_readClock
  | print => exact hemit _
  | println => exact hemit _

end Observes

end Run

open Run

def Account.depth (fuel : Nat) : Account where
  Says moments run machine :=
    (∀ moment ∈ moments, moment.machine.depth = machine.depth) ∧
      Observes (Moment.callsOf fuel moments) run machine
  hidden h := ⟨by simp, observes_hidden h⟩
  bind := by
    intro α β run next machine moments rest hrun hnext
    obtain ⟨hmoments, hrun⟩ := hrun
    have hboth := observes_bind hrun fun value after hresult => (hnext value after hresult).2
    unfold behind
    cases hresult : run machine with
    | ok value after =>
        have hafter : after.depth = machine.depth := (hrun.of_ok hresult).1
        obtain ⟨hothers, -⟩ := hnext value after hresult
        refine ⟨List.forall_mem_append.mpr ⟨hmoments, fun moment hmem => ?_⟩, ?_⟩
        · rw [hothers moment hmem, hafter]
        · simpa [Moment.callsOf, hresult] using hboth
    | error reason after =>
        exact ⟨by simpa using hmoments, by simpa [hresult] using hboth⟩

namespace Moment

theorem calls_zero (task : Task) (machine : Machine) : calls ⟨0, task, machine⟩ = [] := rfl

theorem calls_succ (fuel : Nat) (task : Task) (machine : Machine) :
    calls ⟨fuel + 1, task, machine⟩ =
      (called? ⟨fuel + 1, task, machine⟩).toList ++ callsOf fuel (task.parts fuel machine) := by
  simp only [calls, Task.moments, callsOf, List.filterMap_cons, List.filterMap_flatMap]
  cases called? ⟨fuel + 1, task, machine⟩ <;> rfl

end Moment

section Tasks

variable {fuel : Nat} {machine : Machine}

theorem Account.depth_at (fuel : Nat) : (Account.depth fuel).At fuel := by
  suffices hobserves : ∀ (task : Task) (machine : Machine),
      Observes (Moment.calls ⟨fuel, task, machine⟩) (task.run fuel) machine by
    intro task machine
    exact ⟨by simp, by simpa [Moment.callsOf] using hobserves task machine⟩
  induction fuel with
  | zero =>
      intro task machine
      rw [Task.run_zero, Moment.calls_zero]
      exact observes_hidden (hidden_throw _)
  | succ fuel ih =>
      have hat : (Account.depth fuel).At fuel := fun task machine =>
        ⟨by simp, by simpa [Moment.callsOf] using ih task machine⟩
      intro task machine
      rw [Moment.calls_succ]
      cases task with
      | call callable args span =>
          cases callable with
          | builtin builtin =>
              simp only [Task.run, call]
              exact observes_applyBuiltin builtin args span
          | closure closure =>
              simp only [Task.run, call]
              exact observes_nested (Account.body_says hat closure args span).2
      | _ => exact (Account.parts_say hat _ (by simp)).2

/-- However a task ends, it ends at the depth at which it began; and those calls are observed that
begin at its moments. -/
theorem Task.observes (fuel : Nat) (task : Task) (machine : Machine) :
    Observes (Moment.calls ⟨fuel, task, machine⟩) (task.run fuel) machine := by
  simpa [Moment.callsOf] using (Account.depth_at fuel task machine).2

theorem Task.depth_parts (fuel : Nat) (around : List Closure) (task : Task) (machine : Machine) :
    ∀ part ∈ task.parts fuel machine,
      part.machine.depth + around.length = machine.depth + (task.amid around).length := by
  intro part hpart
  have hat := Account.depth_at fuel
  cases task with
  | call callable args span =>
      cases callable with
      | builtin builtin => cases hpart
      | closure closure =>
          rw [(Account.body_says hat closure args span).1 part hpart]
          simp only [Machine.entered, amid, List.length_cons]
          omega
  | _ =>
      rw [(Account.parts_say hat _ (by simp)).1 part hpart]
      rfl

theorem Task.depth_momentsAmid (fuel : Nat) (around : List Closure) (task : Task)
    (machine : Machine) : ∀ entry ∈ task.momentsAmid fuel around machine,
      entry.2.machine.depth + around.length = machine.depth + entry.1.length := by
  induction fuel generalizing around task machine with
  | zero =>
      intro entry hentry
      obtain rfl := List.mem_singleton.mp hentry
      rfl
  | succ fuel ih =>
      intro entry hentry
      rcases List.mem_cons.mp hentry with rfl | hentry
      · rfl
      · obtain ⟨part, hpart, hentry⟩ := List.mem_flatMap.mp hentry
        have hbegins := task.depth_parts fuel around machine part hpart
        have hinside := ih _ _ _ entry hentry
        omega

end Tasks

namespace Program

/-- The calls of the script's functions in a run, in order: the function that is called, and the
calls that go on around it. -/
def calls (program : Program) (fuel : Nat) (machine : Machine) : List (Closure × List Closure) :=
  (Task.momentsAmid fuel [] (.executeAll Machine.globals .nothing program.statements)
    machine).filterMap fun (around, moment) => moment.callee?.map (·, around)

theorem observed_calls (program : Program) (fuel : Nat) (machine : Machine) :
    Moment.calls ⟨fuel, .executeAll Machine.globals .nothing program.statements, machine⟩ =
      (program.calls fuel machine).map fun (callee, around) =>
        .called callee.name (machine.depth + around.length + 1) := by
  have hdepth := Task.depth_momentsAmid fuel []
    (.executeAll Machine.globals .nothing program.statements) machine
  rw [Moment.calls, ← Task.map_momentsAmid fuel [], calls, List.filterMap_map, List.map_filterMap]
  refine List.filterMap_congr fun entry hentry => ?_
  have hentry := hdepth entry hentry
  rw [List.length_nil, Nat.add_zero] at hentry
  simp only [Function.comp_apply, Moment.called?, hentry, Option.map_map]
  rfl

end Program

def Ended.closing (ended : Ended) : List Event :=
  match ended.result with
  | .error (.fault error) => [.aborted error]
  | _ => []

theorem Program.run_observes (program : Program) (fuel : Nat) (machine : Machine) :
    let ended := program.run fuel machine
    ended.machine.depth = machine.depth ∧
      ended.machine.events.toList = machine.events.toList ++
        ((program.calls fuel machine).map fun (callee, around) =>
          .called callee.name (machine.depth + around.length + 1)) ++ ended.closing := by
  have hends := Task.observes fuel (.executeAll Machine.globals .nothing program.statements) machine
  rw [program.observed_calls] at hends
  unfold run
  cases hrun : Run.executeAll fuel Machine.globals .nothing program.statements machine with
  | ok flow after =>
      obtain ⟨hdepth, hevents⟩ := hends.of_ok hrun
      exact ⟨hdepth, by simp [hevents, Ended.closing]⟩
  | error reason after =>
      obtain ⟨hdepth, hevents⟩ := hends.of_error hrun
      cases reason with
      | fault error => exact ⟨hdepth, by simp [hevents, Ended.closing]⟩
      | outOfFuel => exact ⟨hdepth, by simp [hevents, Ended.closing]⟩

theorem Machine.depth_runAll (machine : Machine) (programs : List (Nat × Program)) :
    (machine.runAll programs).depth = machine.depth := by
  induction programs generalizing machine with
  | nil => rfl
  | cons program rest ih =>
      exact (ih _).trans (program.2.run_observes program.1 machine).1

/-- Calls are balanced. From any machine on, and whatever comes of it, evaluating an expression,
executing a statement and running a program end at the depth at which they began. So after programs
that were run one after another on a fresh machine, however each of them ended, the calls that are
observed of a run, which are all that it makes, tell one more than the number of calls that go on
around them. -/
theorem Machine.depth_balanced :
    (∀ fuel scope expr machine, (evaluate fuel scope expr).Ends machine
      (fun _ after => after.depth = machine.depth) fun _ after => after.depth = machine.depth) ∧
    (∀ fuel scope stmt machine, (execute fuel scope stmt).Ends machine
      (fun _ after => after.depth = machine.depth) fun _ after => after.depth = machine.depth) ∧
    (∀ (program : Program) fuel machine,
      (program.run fuel machine).machine.depth = machine.depth) ∧
    ∀ output clock programs (program : Program) fuel,
      let machine := (new output clock).runAll programs
      let ended := program.run fuel machine
      ended.machine.events.toList = machine.events.toList ++
        ((program.calls fuel machine).map fun (callee, around) =>
          .called callee.name (1 + around.length)) ++ ended.closing := by
  have hbalanced : ∀ fuel (task : Task) machine, (task.run fuel).Ends machine
      (fun _ after => after.depth = machine.depth) fun _ after => after.depth = machine.depth :=
    fun fuel task machine =>
      (task.observes fuel machine).mono (fun _ _ h => h.1) fun _ _ h => h.1
  refine ⟨fun fuel scope expr => hbalanced fuel (.evaluate scope expr),
    fun fuel scope stmt => hbalanced fuel (.execute scope stmt),
    fun program fuel machine => (program.run_observes fuel machine).1, ?_⟩
  intro output clock programs program fuel machine ended
  have hdepth : machine.depth = 0 := (new output clock).depth_runAll programs
  have hevents := (program.run_observes fuel machine).2
  rw [hdepth] at hevents
  simpa only [Nat.zero_add, Nat.add_comm 1] using hevents

/-- The last of these calls is given up within the other two. -/
example :
    let program : Program :=
      .read "fn f(n) \x7b if n == 0 \x7b 1 / 0 \x7d f(n - 1) \x7d f(2)"
    (program.calls 40 (.new .unbounded fun _ => 0)).map
      (fun (callee, around) => (callee.name, around.length)) = [("f", 0), ("f", 1), ("f", 2)] := by
  decide +kernel

end Scriptlet
