import Scriptlet.Proofs.Running

/-! A run as a tree of tasks. Every task is carried out by other tasks with less fuel, one after
another; a moment is a task with the machine on which it begins. A contract says what has to
hold before a task and what then holds behind it. Once every task keeps it as long as its parts
do, it holds at every moment of every run. -/

namespace Scriptlet

inductive Task where
  | evaluate (scope : ScopeId) (expr : Expr)
  | evaluateAll (scope : ScopeId) (exprs : List Expr)
  | call (callable : Callable) (args : List Value) (span : Span)
  | execute (scope : ScopeId) (stmt : Stmt)
  | executeAll (scope : ScopeId) (last : Value) (stmts : List Stmt)
  | repeatWhile (scope : ScopeId) (condition : Expr) (body : Block)

namespace Task

@[reducible] def Answer : Task → Type
  | .evaluate .. | .call .. => Value
  | .evaluateAll .. => List Value
  | .execute .. | .executeAll .. | .repeatWhile .. => Flow

def run (fuel : Nat) : (task : Task) → Run task.Answer
  | .evaluate scope expr => Run.evaluate fuel scope expr
  | .evaluateAll scope exprs => Run.evaluateAll fuel scope exprs
  | .call callable args span => Run.call fuel callable args span
  | .execute scope stmt => Run.execute fuel scope stmt
  | .executeAll scope last stmts => Run.executeAll fuel scope last stmts
  | .repeatWhile scope condition body => Run.repeatWhile fuel scope condition body

theorem run_zero (task : Task) : task.run 0 = throw .outOfFuel := by
  cases task <;> simp only [run, Run.evaluate, Run.evaluateAll, Run.call, Run.execute,
    Run.executeAll, Run.repeatWhile]

end Task

structure Moment where
  fuel : Nat
  task : Task
  machine : Machine

section Parts

variable {α : Type}

def behind (run : Run α) (machine : Machine) (rest : α → Machine → List Moment) : List Moment :=
  match run machine with
  | .ok value after => rest value after
  | .error .. => []

def visit (fuel : Nat) (task : Task) (machine : Machine)
    (rest : task.Answer → Machine → List Moment) : List Moment :=
  ⟨fuel, task, machine⟩ :: behind (task.run fuel) machine rest

end Parts

namespace Task

/-- The tasks by which a task with one more unit of fuel is carried out. -/
def parts (fuel : Nat) (machine : Machine) : Task → List Moment
  | .evaluate _ (.literal ..) | .evaluate _ (.variable ..) | .evaluate _ (.function ..) => []
  | .evaluate scope (.group inner _) => visit fuel (.evaluate scope inner) machine fun _ _ => []
  | .evaluate scope (.assign name value _) =>
      behind (Run.isBound scope name) machine fun bound machine =>
        if bound then visit fuel (.evaluate scope value) machine fun _ _ => [] else []
  | .evaluate scope (.unary _ operand _) =>
      visit fuel (.evaluate scope operand) machine fun _ _ => []
  | .evaluate scope (.binary _ left right _) =>
      visit fuel (.evaluate scope left) machine fun _ machine =>
        visit fuel (.evaluate scope right) machine fun _ _ => []
  | .evaluate scope (.call callee args mark) =>
      visit fuel (.evaluate scope callee) machine fun callee machine =>
        match callee with
        | .function callable =>
            visit fuel (.evaluateAll scope args) machine fun args machine =>
              if args.length = callable.arity then
                visit fuel (.call callable args mark.span) machine fun _ _ => []
              else []
        | _ => []
  | .evaluateAll _ [] => []
  | .evaluateAll scope (expr :: rest) =>
      visit fuel (.evaluate scope expr) machine fun _ machine =>
        visit fuel (.evaluateAll scope rest) machine fun _ _ => []
  | .call (.builtin _) _ _ => []
  | .call (.closure closure) args _ =>
      behind (Run.enter closure args) (machine.entered closure.name) fun scope machine =>
        visit fuel (.executeAll scope .nothing closure.decl.body) machine fun _ _ => []
  | .execute scope (.expression expr) =>
      visit fuel (.evaluate scope expr) machine fun _ _ => []
  | .execute _ (.binding _ _ none _) | .execute _ (.binding _ _ (some (.function ..)) _) => []
  | .execute scope (.binding _ _ (some init) _) =>
      visit fuel (.evaluate scope init) machine fun _ _ => []
  | .execute scope (.block block) =>
      behind (Run.inside scope) machine fun inner machine =>
        visit fuel (.executeAll inner .nothing block.statements) machine fun _ _ => []
  | .execute scope (.conditional condition thenBlock otherwise _) =>
      visit fuel (.evaluate scope condition) machine fun condition machine =>
        if condition.isTruthy then
          behind (Run.inside scope) machine fun inner machine =>
            visit fuel (.executeAll inner .nothing thenBlock.statements) machine fun _ _ => []
        else
          match otherwise with
          | some stmt => visit fuel (.execute scope stmt) machine fun _ _ => []
          | none => []
  | .execute scope (.loop condition body _) =>
      visit fuel (.repeatWhile scope condition body) machine fun _ _ => []
  | .execute _ (.function _) | .execute _ (.ret none _) => []
  | .execute scope (.ret (some value) _) =>
      visit fuel (.evaluate scope value) machine fun _ _ => []
  | .executeAll _ _ [] => []
  | .executeAll scope _ (stmt :: rest) =>
      visit fuel (.execute scope stmt) machine fun flow machine =>
        match flow with
        | .normal value => visit fuel (.executeAll scope value rest) machine fun _ _ => []
        | .returned _ => []
  | .repeatWhile scope condition body =>
      visit fuel (.evaluate scope condition) machine fun truth machine =>
        if truth.isTruthy then
          behind (Run.inside scope) machine fun inner machine =>
            visit fuel (.executeAll inner .nothing body.statements) machine fun flow machine =>
              match flow with
              | .normal _ => visit fuel (.repeatWhile scope condition body) machine fun _ _ => []
              | .returned _ => []
        else []

/-- All moments of a task, itself first. -/
def moments : Nat → Task → Machine → List Moment
  | 0, task, machine => [⟨0, task, machine⟩]
  | fuel + 1, task, machine =>
      ⟨fuel + 1, task, machine⟩ ::
        (task.parts fuel machine).flatMap fun part => moments fuel part.task part.machine

end Task

def Program.moments (program : Program) (fuel : Nat) (machine : Machine) : List Moment :=
  Task.moments fuel (.executeAll Machine.globals .nothing program.statements) machine

/-- A run ends as said, and `visited` holds at the moments that it passes through. -/
def Traces {α : Type} (visited : Task → Machine → Prop) (moments : List Moment) (run : Run α)
    (machine : Machine) (ok : α → Machine → Prop) (stop : Stop → Machine → Prop) : Prop :=
  (∀ moment ∈ moments, visited moment.task moment.machine) ∧ run.Ends machine ok stop

def Visits (visited : Task → Machine → Prop) (fuel : Nat) (task : Task) (machine : Machine)
    (ok : task.Answer → Machine → Prop) (stop : Stop → Machine → Prop) : Prop :=
  visited task machine ∧ (task.run fuel).Ends machine ok stop

theorem Visits.mono {visited : Task → Machine → Prop} {fuel : Nat} {task : Task}
    {machine : Machine} {ok ok' : task.Answer → Machine → Prop} {stop stop' : Stop → Machine → Prop}
    (h : Visits visited fuel task machine ok stop)
    (hok : ∀ answer after, ok answer after → ok' answer after)
    (hstop : ∀ reason after, stop reason after → stop' reason after) :
    Visits visited fuel task machine ok' stop' :=
  ⟨h.1, h.2.mono hok hstop⟩

section Traces

variable {α β : Type} {visited : Task → Machine → Prop} {machine : Machine}
  {ok : α → Machine → Prop} {stop : Stop → Machine → Prop}

theorem traces_nil {run : Run α} (h : run.Ends machine ok stop) :
    Traces visited [] run machine ok stop :=
  ⟨by simp, h⟩

theorem traces_behind {run : Run β} {next : β → Run α} {rest : β → Machine → List Moment}
    (h : run.Ends machine
      (fun value after => Traces visited (rest value after) (next value) after ok stop) stop) :
    Traces visited (behind run machine rest) (run >>= next) machine ok stop := by
  refine ⟨?_, Run.ends_bind.mpr (h.mono (fun _ _ htraces => htraces.2) fun _ _ hstop => hstop)⟩
  unfold behind
  split
  · rename_i heq
    exact (h.of_ok heq).1
  · simp

theorem traces_visit (task : Task) {fuel : Nat} {next : task.Answer → Run α}
    {rest : task.Answer → Machine → List Moment}
    (h : Visits visited fuel task machine
      (fun value after => Traces visited (rest value after) (next value) after ok stop) stop) :
    Traces visited (visit fuel task machine rest) (task.run fuel >>= next) machine ok stop := by
  obtain ⟨hmoments, hends⟩ := traces_behind h.2
  exact ⟨List.forall_mem_cons.mpr ⟨h.1, hmoments⟩, hends⟩

theorem traces_last (task : Task) {fuel : Nat} {ok : task.Answer → Machine → Prop}
    (h : Visits visited fuel task machine ok stop) :
    Traces visited (visit fuel task machine fun _ _ => []) (task.run fuel) machine ok stop := by
  rw [← bind_pure (task.run fuel)]
  exact traces_visit task (h.mono (fun _ _ hok => traces_nil hok) fun _ _ hstop => hstop)

theorem traces_nested {name : String} {body : Run α} {moments : List Moment}
    (h : Traces visited moments body (machine.entered name) (fun value after => ok value after.left)
      (fun reason after => stop reason after.left)) :
    Traces visited moments (Run.nested name body) machine ok stop :=
  ⟨h.1, Run.ends_nested.mpr h.2⟩

end Traces

/-- A task that ends as said, its parts with less fuel being visited. -/
def Carries (visited : Task → Machine → Prop) (fuel : Nat) (task : Task) (machine : Machine)
    (ok : task.Answer → Machine → Prop) (stop : Stop → Machine → Prop) : Prop :=
  Traces visited (task.parts fuel machine) (task.run (fuel + 1)) machine ok stop

/-- What has to hold before a task and what then holds behind it, the machine before it being
remembered. The ghost is what a task does not show of where it stands. -/
structure Contract (γ : Type) where
  pre : γ → Task → Machine → Prop
  post : γ → (task : Task) → Machine → task.Answer → Machine → Prop
  stop : γ → Task → Machine → Stop → Machine → Prop

namespace Contract

variable {γ : Type} {contract : Contract γ}

def At (contract : Contract γ) (fuel : Nat) : Prop :=
  ∀ ghost task machine, contract.pre ghost task machine →
    (task.run fuel).Ends machine (contract.post ghost task machine)
      (contract.stop ghost task machine)

def Visited (contract : Contract γ) (task : Task) (machine : Machine) : Prop :=
  ∃ ghost, contract.pre ghost task machine

/-- What a task has to do for the contract, once it holds for its parts. -/
def Step (contract : Contract γ) (fuel : Nat) (ghost : γ) (task : Task) (machine : Machine) :
    Prop :=
  Carries contract.Visited fuel task machine (contract.post ghost task machine)
    (contract.stop ghost task machine)

theorem At.visits {fuel : Nat} {task : Task} {machine : Machine} (h : contract.At fuel)
    (ghost : γ) (hpre : contract.pre ghost task machine) :
    Visits contract.Visited fuel task machine (contract.post ghost task machine)
      (contract.stop ghost task machine) :=
  ⟨⟨ghost, hpre⟩, h ghost task machine hpre⟩

structure Kept (contract : Contract γ) : Prop where
  exhausted : ∀ ghost task machine, contract.pre ghost task machine →
    contract.stop ghost task machine .outOfFuel machine
  step : ∀ fuel, contract.At fuel → ∀ ghost task machine, contract.pre ghost task machine →
    contract.Step fuel ghost task machine

theorem Kept.at (kept : contract.Kept) : (fuel : Nat) → contract.At fuel
  | 0, ghost, task, machine, hpre => by
      rw [Task.run_zero]
      exact kept.exhausted ghost task machine hpre
  | fuel + 1, ghost, task, machine, hpre =>
      (kept.step fuel (kept.at fuel) ghost task machine hpre).2

/-- What has to hold before a task does hold at every moment of a run. -/
theorem Kept.visited (kept : contract.Kept) (fuel : Nat) {ghost : γ} {task : Task}
    {machine : Machine} (hpre : contract.pre ghost task machine) :
    ∀ moment ∈ task.moments fuel machine, contract.Visited moment.task moment.machine := by
  induction fuel generalizing ghost task machine with
  | zero =>
      intro moment hmoment
      obtain rfl := List.mem_singleton.mp hmoment
      exact ⟨ghost, hpre⟩
  | succ fuel ih =>
      intro moment hmoment
      rcases List.mem_cons.mp hmoment with rfl | hpart
      · exact ⟨ghost, hpre⟩
      · -- A part may be visited with another ghost than the whole.
        obtain ⟨part, hmem, hmoment⟩ := List.mem_flatMap.mp hpart
        have hstep := kept.step fuel (kept.at fuel) ghost task machine hpre
        obtain ⟨ghost', hpart⟩ := hstep.1 part hmem
        exact ih hpart moment hmoment

end Contract

end Scriptlet
