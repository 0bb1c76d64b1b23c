import Scriptlet.Proofs.Running.Task

/-! Accounts of runs. What a run leaves behind for those who look at a machine from outside, its
output, its transcript, its depth and its events, is left behind at the moments of calls; everything
else that a run does is hidden from them. An account says of a run what its moments have to do with
it, and whoever gives one has to look at calls only. -/

namespace Scriptlet

/-- Machines between which nothing tells from outside. -/
structure Machine.LooksLike (machine other : Machine) : Prop where
  output : machine.output = other.output
  transcript : machine.transcript = other.transcript
  depth : machine.depth = other.depth
  events : machine.events = other.events

namespace Run

variable {α β : Type}

def withSurface (output : Output) (transcript : Option String) (depth : Nat)
    (events : Array Event) : EStateM.Result Stop Machine α → EStateM.Result Stop Machine α
  | .ok value after => .ok value { after with output, transcript, depth, events }
  | .error reason after => .error reason { after with output, transcript, depth, events }

/-- The run neither changes what can be seen from outside nor depends on it. -/
def Hidden (run : Run α) : Prop :=
  ∀ machine output transcript depth events,
    run { machine with output, transcript, depth, events } =
      withSurface output transcript depth events (run machine)

section Hidden

variable {scope : ScopeId} {name : String} {value : Value} {span : Span}

theorem hidden_pure (a : α) : Hidden (pure a) := fun _ _ _ _ _ => rfl

theorem hidden_throw (reason : Stop) : Hidden (throw reason : Run α) := fun _ _ _ _ _ => rfl

theorem hidden_fail (fault : RuntimeFault) (span : Span) : Hidden (fail fault span : Run α) :=
  hidden_throw _

theorem hidden_bind {run : Run β} {next : β → Run α} (hrun : Hidden run)
    (hnext : ∀ b, Hidden (next b)) : Hidden (run >>= next) := by
  intro machine output transcript depth events
  simp only [bind, EStateM.bind, hrun machine output transcript depth events]
  cases run machine with
  | ok b after => exact hnext b after output transcript depth events
  | error reason after => rfl

theorem hidden_ofExcept (result : Except RuntimeFault α) : Hidden (ofExcept span result) := by
  cases result with
  | ok a => exact hidden_pure a
  | error fault => exact hidden_fail fault span

theorem hidden_lookup : Hidden (lookup scope name) := fun _ _ _ _ _ => rfl

theorem hidden_isBound : Hidden (isBound scope name) := fun _ _ _ _ _ => rfl

theorem hidden_define : Hidden (define scope name value) := fun _ _ _ _ _ => rfl

theorem hidden_assign : Hidden (assign scope name value) := by
  intro machine output transcript depth events
  simp only [assign]
  cases machine.scopes.resolve scope name <;> rfl

theorem hidden_inside : Hidden (inside scope) := fun _ _ _ _ _ => rfl

theorem hidden_closure (decl : FnDecl) : Hidden (closure name decl scope) := fun _ _ _ _ _ => rfl

theorem hidden_functionLiteral (decl : FnDecl) : Hidden (functionLiteral name decl scope) := by
  unfold functionLiteral
  split
  · exact hidden_closure decl
  · refine hidden_bind hidden_inside fun own => ?_
    refine hidden_bind (hidden_closure decl) fun value => ?_
    exact hidden_bind hidden_define fun _ => hidden_pure value

theorem hidden_bindParams (params : List Param) (args : List Value) :
    Hidden (bindParams scope params args) := by
  unfold bindParams
  induction params.zip args with
  | nil => exact hidden_pure ()
  | cons entry rest ih => exact hidden_bind hidden_define fun _ => ih

theorem hidden_enter (closure : Closure) (args : List Value) : Hidden (enter closure args) :=
  hidden_bind hidden_inside fun scope =>
    hidden_bind (hidden_bindParams _ args) fun _ => hidden_pure scope

theorem hidden_readClock : Hidden readClock := fun _ _ _ _ _ => rfl

theorem Hidden.ends {run : Run α} (h : Hidden run) (machine : Machine) :
    run.Ends machine (fun _ after => after.LooksLike machine)
      (fun _ after => after.LooksLike machine) := by
  have hlooks : ∀ after : Machine, after = { after with
      output := machine.output, transcript := machine.transcript, depth := machine.depth,
      events := machine.events } → after.LooksLike machine := by
    intro after hafter
    rw [hafter]
    exact ⟨rfl, rfl, rfl, rfl⟩
  have hsame := h machine machine.output machine.transcript machine.depth machine.events
  unfold Ends
  cases hrun : run machine with
  | ok value after =>
      rw [hrun] at hsame
      exact hlooks after (EStateM.Result.ok.inj hsame).2
  | error reason after =>
      rw [hrun] at hsame
      exact hlooks after (EStateM.Result.error.inj hsame).2

end Hidden

end Run

open Run

/-- What is said of a run on a machine, given its moments that are no parts of each other. It holds
of what is hidden, and goes on from one run to the next. -/
structure Account where
  Says : {α : Type} → List Moment → Run α → Machine → Prop
  hidden : ∀ {α : Type} {run : Run α} {machine : Machine}, run.Hidden → Says [] run machine
  bind : ∀ {α β : Type} {run : Run β} {next : β → Run α} {machine : Machine}
    {moments : List Moment} {rest : β → Machine → List Moment}, Says moments run machine →
    (∀ value after, run machine = .ok value after → Says (rest value after) (next value) after) →
      Says (moments ++ behind run machine rest) (run >>= next) machine

namespace Account

variable {account : Account} {fuel : Nat} {machine : Machine}

def At (account : Account) (fuel : Nat) : Prop :=
  ∀ (task : Task) (machine : Machine),
    account.Says [⟨fuel, task, machine⟩] (task.run fuel) machine

section Parts

variable {α β : Type}

theorem says_behind {run : Run β} {next : β → Run α} {rest : β → Machine → List Moment}
    (hrun : Hidden run)
    (hnext : ∀ value after, account.Says (rest value after) (next value) after) :
    account.Says (behind run machine rest) (run >>= next) machine :=
  account.bind (account.hidden hrun) fun value after _ => hnext value after

theorem says_visit (h : account.At fuel) (task : Task) {next : task.Answer → Run α}
    {rest : task.Answer → Machine → List Moment}
    (hnext : ∀ value after, account.Says (rest value after) (next value) after) :
    account.Says (visit fuel task machine rest) (task.run fuel >>= next) machine :=
  account.bind (h task machine) fun value after _ => hnext value after

theorem says_visit_hidden (h : account.At fuel) (task : Task) {next : task.Answer → Run α}
    (hnext : ∀ value, Hidden (next value)) :
    account.Says (visit fuel task machine fun _ _ => []) (task.run fuel >>= next) machine :=
  says_visit h task fun value _ => account.hidden (hnext value)

theorem says_last (h : account.At fuel) (task : Task) :
    account.Says (visit fuel task machine fun _ _ => []) (task.run fuel) machine := by
  rw [← bind_pure (task.run fuel)]
  exact says_visit_hidden h task hidden_pure

end Parts

section Step

variable (h : account.At fuel)

include h

theorem evaluate_says (scope : ScopeId) (expr : Expr) :
    account.Says (Task.parts fuel machine (.evaluate scope expr))
      (evaluate (fuel + 1) scope expr) machine := by
  cases expr with
  | literal value mark =>
      simp only [evaluate, Task.parts]
      exact account.hidden (hidden_pure _)
  | «variable» name mark =>
      simp only [evaluate, Task.parts]
      refine account.hidden (hidden_bind hidden_lookup fun found => ?_)
      cases found with
      | none => exact hidden_fail _ _
      | some value => exact hidden_pure value
  | assign name value mark =>
      simp only [evaluate, Task.parts]
      refine says_behind hidden_isBound fun bound after => ?_
      cases bound with
      | false => exact account.hidden (hidden_fail _ _)
      | true =>
          refine says_visit_hidden h (.evaluate scope value) fun value => ?_
          refine hidden_bind hidden_assign fun assigned => ?_
          cases assigned with
          | false => exact hidden_fail _ _
          | true => exact hidden_pure value
  | group inner mark =>
      simp only [evaluate, Task.parts]
      exact says_last h (.evaluate scope inner)
  | unary op operand mark =>
      simp only [evaluate, Task.parts]
      exact says_visit_hidden h (.evaluate scope operand) fun _ => hidden_ofExcept _
  | binary op left right mark =>
      simp only [evaluate, Task.parts]
      refine says_visit h (.evaluate scope left) fun x middle => ?_
      exact says_visit_hidden h (.evaluate scope right) fun _ => hidden_ofExcept _
  | call callee args mark =>
      simp only [evaluate, Task.parts]
      refine says_visit h (.evaluate scope callee) fun value middle => ?_
      cases value with
      | function callable =>
          refine says_visit h (.evaluateAll scope args) fun values after => ?_
          split
          · exact says_last h (.call callable values mark.span)
          · exact account.hidden (hidden_fail _ _)
      | _ => exact account.hidden (hidden_fail _ _)
  | function decl mark =>
      simp only [evaluate, Task.parts]
      exact account.hidden (hidden_functionLiteral decl)

theorem evaluateAll_says (scope : ScopeId) (exprs : List Expr) :
    account.Says (Task.parts fuel machine (.evaluateAll scope exprs))
      (evaluateAll (fuel + 1) scope exprs) machine := by
  cases exprs with
  | nil =>
      simp only [evaluateAll, Task.parts]
      exact account.hidden (hidden_pure _)
  | cons expr rest =>
      simp only [evaluateAll, Task.parts]
      refine says_visit h (.evaluate scope expr) fun value middle => ?_
      exact says_visit_hidden h (.evaluateAll scope rest) fun _ => hidden_pure _

theorem body_says (closure : Closure) (args : List Value) (span : Span) :
    account.Says (Task.parts fuel machine (.call (.closure closure) args span))
      (do
        let scope ← enter closure args
        match ← executeAll fuel scope .nothing closure.decl.body with
        | .returned value => return value
        | .normal _ => return Value.nothing)
      (machine.entered closure.name) := by
  simp only [Task.parts]
  refine says_behind (hidden_enter closure args) fun scope after => ?_
  refine says_visit_hidden h (.executeAll scope .nothing closure.decl.body) fun flow => ?_
  cases flow <;> exact hidden_pure _

theorem inside_says (scope : ScopeId) (stmts : List Stmt) :
    account.Says (behind (inside scope) machine fun inner machine =>
        visit fuel (.executeAll inner .nothing stmts) machine fun _ _ => [])
      (inside scope >>= fun inner => executeAll fuel inner .nothing stmts) machine :=
  says_behind hidden_inside fun inner _ => says_last h (.executeAll inner .nothing stmts)

theorem execute_says (scope : ScopeId) (stmt : Stmt) :
    account.Says (Task.parts fuel machine (.execute scope stmt))
      (execute (fuel + 1) scope stmt) machine := by
  cases stmt with
  | expression expr =>
      simp only [execute, Task.parts]
      exact says_visit_hidden h (.evaluate scope expr) fun _ => hidden_pure _
  | binding name declared init mark =>
      cases init with
      | none =>
          simp only [execute, Task.parts]
          refine account.hidden (hidden_bind (hidden_pure _) fun value => ?_)
          exact hidden_bind hidden_define fun _ => hidden_pure _
      | some init =>
          cases init
          case function decl slot =>
            simp only [execute, Task.parts]
            refine account.hidden (hidden_bind (hidden_functionLiteral decl) fun value => ?_)
            exact hidden_bind hidden_define fun _ => hidden_pure _
          all_goals
            simp only [execute, Task.parts]
            exact says_visit_hidden h (.evaluate scope _)
              fun _ => hidden_bind hidden_define fun _ => hidden_pure _
  | block block =>
      simp only [execute, Task.parts]
      exact inside_says h scope block.statements
  | conditional condition thenBlock otherwise span =>
      cases otherwise with
      | none =>
          simp only [execute, Task.parts]
          refine says_visit h (.evaluate scope condition) fun truth after => ?_
          split
          · exact inside_says h scope thenBlock.statements
          · exact account.hidden (hidden_pure _)
      | some stmt =>
          simp only [execute, Task.parts]
          refine says_visit h (.evaluate scope condition) fun truth after => ?_
          split
          · exact inside_says h scope thenBlock.statements
          · exact says_last h (.execute scope stmt)
  | loop condition body span =>
      simp only [execute, Task.parts]
      exact says_last h (.repeatWhile scope condition body)
  | function decl =>
      simp only [execute, Task.parts]
      refine account.hidden (hidden_bind (hidden_closure decl) fun value => ?_)
      exact hidden_bind hidden_define fun _ => hidden_pure _
  | ret value span =>
      cases value with
      | none =>
          simp only [execute, Task.parts]
          exact account.hidden (hidden_pure _)
      | some value =>
          simp only [execute, Task.parts]
          exact says_visit_hidden h (.evaluate scope value) fun _ => hidden_pure _

theorem executeAll_says (scope : ScopeId) (last : Value) (stmts : List Stmt) :
    account.Says (Task.parts fuel machine (.executeAll scope last stmts))
      (executeAll (fuel + 1) scope last stmts) machine := by
  cases stmts with
  | nil =>
      simp only [executeAll, Task.parts]
      exact account.hidden (hidden_pure _)
  | cons stmt rest =>
      simp only [executeAll, Task.parts]
      refine says_visit h (.execute scope stmt) fun flow middle => ?_
      cases flow with
      | normal value => exact says_last h (.executeAll scope value rest)
      | returned value => exact account.hidden (hidden_pure _)

theorem repeatWhile_says (scope : ScopeId) (condition : Expr) (body : Block) :
    account.Says (Task.parts fuel machine (.repeatWhile scope condition body))
      (repeatWhile (fuel + 1) scope condition body) machine := by
  simp only [repeatWhile, Task.parts]
  refine says_visit h (.evaluate scope condition) fun truth after => ?_
  split
  · refine says_behind hidden_inside fun inner after => ?_
    refine says_visit h (.executeAll inner .nothing body.statements) fun flow after => ?_
    cases flow with
    | normal value => exact says_last h (.repeatWhile scope condition body)
    | returned value => exact account.hidden (hidden_pure _)
  · exact account.hidden (hidden_pure _)

/-- Apart from calls, a task is what its parts are. -/
theorem parts_say (task : Task) (hcall : ∀ callable args span, task ≠ .call callable args span) :
    account.Says (task.parts fuel machine) (task.run (fuel + 1)) machine := by
  cases task with
  | evaluate scope expr => exact evaluate_says h scope expr
  | evaluateAll scope exprs => exact evaluateAll_says h scope exprs
  | call callable args span => exact absurd rfl (hcall callable args span)
  | execute scope stmt => exact execute_says h scope stmt
  | executeAll scope last stmts => exact executeAll_says h scope last stmts
  | repeatWhile scope condition body => exact repeatWhile_says h scope condition body

end Step

end Account

end Scriptlet
