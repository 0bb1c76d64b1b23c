import Scriptlet.Proofs.Printing.Run
import Scriptlet.Proofs.Running.Mirror

/-! The moments of two runs that differ in labels. Each task of the one run is a task of the other,
with other labels and in the same place; so the calls that print are the same, and have the same
values but for labels. -/

namespace Scriptlet

inductive Task.Varied (v : Variation) : Task → Task → Prop
  | evaluate (scope : ScopeId) {expr : Expr} {change : Relabel} (hchange : v.changes change)
      (hsuits : v.Suits expr.nodes) :
      Varied v (.evaluate scope (expr.relabel change)) (.evaluate scope expr)
  | evaluateAll (scope : ScopeId) {exprs : List Expr} {change : Relabel}
      (hchange : v.changes change) (hsuits : v.Suits (Expr.allNodes exprs)) :
      Varied v (.evaluateAll scope (exprs.map (Expr.relabel change))) (.evaluateAll scope exprs)
  | call (span : Span) {callable callable' : Callable} {args args' : List Value}
      {change : Relabel} (hchange : v.changes change) (hcallable : callable.Varied v callable')
      (hargs : List.Forall₂ (Value.Varied v) args args') :
      Varied v (.call callable args (change.span span)) (.call callable' args' span)
  | execute (scope : ScopeId) {stmt : Stmt} {change : Relabel} (hchange : v.changes change)
      (hsuits : v.Suits stmt.nodes) :
      Varied v (.execute scope (stmt.relabel change)) (.execute scope stmt)
  | executeAll (scope : ScopeId) {last last' : Value} {stmts : List Stmt} {change : Relabel}
      (hchange : v.changes change) (hsuits : v.Suits (Stmt.allNodes stmts))
      (hlast : last.Varied v last') :
      Varied v (.executeAll scope last (stmts.map (Stmt.relabel change)))
        (.executeAll scope last' stmts)
  | repeatWhile (scope : ScopeId) {condition : Expr} {body : Block} {change : Relabel}
      (hchange : v.changes change) (hcondition : v.Suits condition.nodes)
      (hbody : v.Suits body.nodes) :
      Varied v (.repeatWhile scope (condition.relabel change) (body.relabel change))
        (.repeatWhile scope condition body)

structure Moment.Varied (c : Comparison) (moment moment' : Moment) : Prop where
  fuel : moment.fuel = moment'.fuel
  task : moment.task.Varied c.toVariation moment'.task
  machine : c.Machines moment.machine moment'.machine

section Parts

variable {α β : Type} {c : Comparison} {related : α → β → Prop} {fuel : Nat}
  {machine machine' : Machine}

theorem behind_varied (hslack : c.slack = 0) {run : Run α} {run' : Run β}
    {rest : α → Machine → List Moment} {rest' : β → Machine → List Moment}
    (hrun : Run.Mirrors c related run run') (hmachine : c.Machines machine machine')
    (hrest : ∀ a b, related a b → ∀ after after', c.Machines after after' →
      List.Forall₂ (Moment.Varied c) (rest a after) (rest' b after')) :
    List.Forall₂ (Moment.Varied c) (behind run machine rest) (behind run' machine' rest') := by
  have hends := hrun machine machine' hmachine
  unfold behind
  cases hfirst : run machine with
  | ok a after =>
      obtain ⟨b, after', hsecond, hrelated, hafter⟩ := hends.of_ok hfirst
      simp only [hsecond]
      exact hrest a b hrelated after after' hafter
  | error reason after =>
      obtain ⟨hne, -⟩ | ⟨reason', after', hsecond, -⟩ := hends.of_error hfirst
      · exact absurd hslack hne
      · simp only [hsecond]
        exact .nil

theorem visit_varied (hslack : c.slack = 0) {task task' : Task}
    {related : task.Answer → task'.Answer → Prop} {rest : task.Answer → Machine → List Moment}
    {rest' : task'.Answer → Machine → List Moment} (htask : task.Varied c.toVariation task')
    (hrun : Run.Mirrors c related (task.run fuel) (task'.run (c.slack + fuel)))
    (hmachine : c.Machines machine machine')
    (hrest : ∀ a b, related a b → ∀ after after', c.Machines after after' →
      List.Forall₂ (Moment.Varied c) (rest a after) (rest' b after')) :
    List.Forall₂ (Moment.Varied c) (visit fuel task machine rest)
      (visit fuel task' machine' rest') := by
  rw [hslack, Nat.zero_add] at hrun
  exact .cons ⟨rfl, htask, hmachine⟩ (behind_varied hslack hrun hmachine hrest)

end Parts

section Step

variable {c : Comparison} {fuel : Nat} {change : Relabel} {machine machine' : Machine}
  (h : Run.Mirrored c fuel) (hslack : c.slack = 0) (hchange : c.changes change)

include h hslack hchange

theorem visit_evaluate (scope : ScopeId) {expr : Expr} (hsuits : c.Suits expr.nodes)
    (hmachine : c.Machines machine machine') {rest rest' : Value → Machine → List Moment}
    (hrest : ∀ value value', value.Varied c.toVariation value' → ∀ after after',
      c.Machines after after' →
        List.Forall₂ (Moment.Varied c) (rest value after) (rest' value' after')) :
    List.Forall₂ (Moment.Varied c)
      (visit fuel (.evaluate scope (expr.relabel change)) machine rest)
      (visit fuel (.evaluate scope expr) machine' rest') :=
  visit_varied hslack (.evaluate scope hchange hsuits) (h.evaluate scope hchange hsuits) hmachine
    hrest

theorem visit_body (scope : ScopeId) {stmts stmts' : List Stmt}
    (hstmts : stmts = stmts'.map (Stmt.relabel change)) (hsuits : c.Suits (Stmt.allNodes stmts'))
    (hmachine : c.Machines machine machine') {rest rest' : Flow → Machine → List Moment}
    (hrest : ∀ flow flow', flow.Varied c.toVariation flow' → ∀ after after',
      c.Machines after after' →
        List.Forall₂ (Moment.Varied c) (rest flow after) (rest' flow' after')) :
    List.Forall₂ (Moment.Varied c)
      (visit fuel (.executeAll scope .nothing stmts) machine rest)
      (visit fuel (.executeAll scope .nothing stmts') machine' rest') := by
  subst hstmts
  exact visit_varied hslack (.executeAll scope hchange hsuits .nothing)
    (h.executeAll scope hchange hsuits .nothing) hmachine hrest

theorem visit_block (scope : ScopeId) {block : Block}
    (hsuits : c.Suits (Stmt.allNodes block.statements)) (hmachine : c.Machines machine machine')
    (rest rest' : Flow → Machine → List Moment)
    (hrest : ∀ flow flow', flow.Varied c.toVariation flow' → ∀ after after',
      c.Machines after after' →
        List.Forall₂ (Moment.Varied c) (rest flow after) (rest' flow' after')) :
    List.Forall₂ (Moment.Varied c)
      (behind (Run.inside scope) machine fun inner machine =>
        visit fuel (.executeAll inner .nothing (block.relabel change).statements) machine rest)
      (behind (Run.inside scope) machine' fun inner machine =>
        visit fuel (.executeAll inner .nothing block.statements) machine rest') := by
  refine behind_varied hslack Run.mirrors_inside hmachine ?_
  rintro inner _ rfl after after' hafter
  exact visit_body h hslack hchange inner (Block.statements_relabel ..) hsuits hafter hrest

theorem evaluate_parts (scope : ScopeId) {expr : Expr} (hsuits : c.Suits expr.nodes)
    (hmachine : c.Machines machine machine') :
    List.Forall₂ (Moment.Varied c)
      (Task.parts fuel machine (.evaluate scope (expr.relabel change)))
      (Task.parts fuel machine' (.evaluate scope expr)) := by
  cases expr with
  | literal value mark => exact .nil
  | «variable» name mark => exact .nil
  | assign name value mark =>
      simp only [Expr.nodes, Variation.suits_cons, Node.plainNames,
        List.forall_mem_singleton] at hsuits
      obtain ⟨⟨hname, -⟩, hvalue⟩ := hsuits
      simp only [Expr.relabel, Task.parts]
      refine behind_varied hslack (Run.mirrors_isBound hname) hmachine ?_
      rintro bound _ rfl after after' hafter
      split
      · exact visit_evaluate h hslack hchange scope hvalue hafter fun _ _ _ _ _ _ => .nil
      · exact .nil
  | group inner mark =>
      simp only [Expr.nodes, Variation.suits_cons] at hsuits
      simp only [Expr.relabel, Task.parts]
      exact visit_evaluate h hslack hchange scope hsuits.2 hmachine fun _ _ _ _ _ _ => .nil
  | unary op operand mark =>
      simp only [Expr.nodes, Variation.suits_cons] at hsuits
      simp only [Expr.relabel, Task.parts]
      exact visit_evaluate h hslack hchange scope hsuits.2 hmachine fun _ _ _ _ _ _ => .nil
  | binary op left right mark =>
      simp only [Expr.nodes, Variation.suits_cons, Variation.suits_append] at hsuits
      simp only [Expr.relabel, Task.parts]
      refine visit_evaluate h hslack hchange scope hsuits.2.1 hmachine fun _ _ _ _ _ hafter => ?_
      exact visit_evaluate h hslack hchange scope hsuits.2.2 hafter fun _ _ _ _ _ _ => .nil
  | call callee args mark =>
      simp only [Expr.nodes, Variation.suits_cons, Variation.suits_append] at hsuits
      simp only [Expr.relabel, Task.parts, Expr.relabelAll_eq_map]
      refine visit_evaluate h hslack hchange scope hsuits.2.1 hmachine
        fun value value' hvalue after after' hafter => ?_
      cases value with
      | function callable =>
          obtain ⟨callable', rfl, hcallable⟩ := hvalue.of_function
          refine visit_varied hslack (.evaluateAll scope hchange hsuits.2.2)
            (h.evaluateAll scope hchange hsuits.2.2) hafter
            fun values values' hvalues after after' hafter => ?_
          have hlength : values.length = values'.length := hvalues.length_eq
          simp only [hlength, hcallable.arity_eq]
          split
          · exact visit_varied hslack (.call _ hchange hcallable hvalues)
              (h.call _ hcallable hvalues hchange) hafter fun _ _ _ _ _ _ => .nil
          · exact .nil
      | _ =>
          obtain rfl := hvalue.eq_of_kind (by simp [Value.kind])
          exact .nil
  | function decl mark => exact .nil

theorem evaluateAll_parts (scope : ScopeId) {exprs : List Expr}
    (hsuits : c.Suits (Expr.allNodes exprs)) (hmachine : c.Machines machine machine') :
    List.Forall₂ (Moment.Varied c)
      (Task.parts fuel machine (.evaluateAll scope (exprs.map (Expr.relabel change))))
      (Task.parts fuel machine' (.evaluateAll scope exprs)) := by
  cases exprs with
  | nil => exact .nil
  | cons expr rest =>
      simp only [Expr.allNodes, Variation.suits_append] at hsuits
      simp only [List.map_cons, Task.parts]
      refine visit_evaluate h hslack hchange scope hsuits.1 hmachine fun _ _ _ _ _ hafter => ?_
      exact visit_varied hslack (.evaluateAll scope hchange hsuits.2)
        (h.evaluateAll scope hchange hsuits.2) hafter fun _ _ _ _ _ _ => .nil

omit hchange in
theorem call_parts {callable callable' : Callable} {args args' : List Value} (span span' : Span)
    (hcallable : callable.Varied c.toVariation callable')
    (hargs : List.Forall₂ (Value.Varied c.toVariation) args args')
    (hmachine : c.Machines machine machine') :
    List.Forall₂ (Moment.Varied c) (Task.parts fuel machine (.call callable args span))
      (Task.parts fuel machine' (.call callable' args' span')) := by
  cases hcallable with
  | builtin builtin => exact .nil
  | @closure identity name made decl scope hmade hsuits hname =>
      have hentered : c.Machines (machine.entered (c.rename name)) (machine'.entered name) :=
        ⟨{ hmachine.varied with depth := congrArg (· + 1) hmachine.varied.depth },
          hmachine.outputs, hmachine.transcripts⟩
      simp only [Task.parts]
      refine behind_varied hslack (Run.mirrors_enter hsuits made identity hargs) hentered ?_
      rintro inner _ rfl after after' hafter
      exact visit_body h hslack hmade inner (decl.relabel_body made) hsuits.body hafter
        fun _ _ _ _ _ _ => .nil

theorem execute_parts (scope : ScopeId) {stmt : Stmt} (hsuits : c.Suits stmt.nodes)
    (hmachine : c.Machines machine machine') :
    List.Forall₂ (Moment.Varied c)
      (Task.parts fuel machine (.execute scope (stmt.relabel change)))
      (Task.parts fuel machine' (.execute scope stmt)) := by
  cases stmt with
  | expression expr =>
      simp only [Stmt.nodes, Variation.suits_cons] at hsuits
      simp only [Stmt.relabel, Task.parts]
      exact visit_evaluate h hslack hchange scope hsuits.2 hmachine fun _ _ _ _ _ _ => .nil
  | binding name declared init mark =>
      cases init with
      | none => exact .nil
      | some init =>
          simp only [Stmt.nodes, Variation.suits_cons] at hsuits
          have hvisit : List.Forall₂ (Moment.Varied c)
              (visit fuel (.evaluate scope (init.relabel change)) machine fun _ _ => [])
              (visit fuel (.evaluate scope init) machine' fun _ _ => []) :=
            visit_evaluate h hslack hchange scope hsuits.2 hmachine fun _ _ _ _ _ _ => .nil
          cases init
          case function decl mark => exact .nil
          all_goals exact hvisit
  | block block =>
      simp only [Stmt.nodes, Variation.suits_cons, Block.nodes_eq] at hsuits
      simp only [Stmt.relabel, Task.parts]
      exact visit_block h hslack hchange scope hsuits.2 hmachine (fun _ _ => []) (fun _ _ => [])
        fun _ _ _ _ _ _ => .nil
  | conditional condition thenBlock otherwise span =>
      rw [Stmt.nodes_conditional] at hsuits
      simp only [Variation.suits_cons, Variation.suits_append] at hsuits
      obtain ⟨-, hcondition, hthen, hotherwise⟩ := hsuits
      simp only [Stmt.relabel, Task.parts]
      refine visit_evaluate h hslack hchange scope hcondition hmachine
        fun truth truth' htruth after after' hafter => ?_
      rw [htruth.resembles.isTruthy_eq]
      split
      · exact visit_block h hslack hchange scope hthen hafter (fun _ _ => []) (fun _ _ => [])
          fun _ _ _ _ _ _ => .nil
      · cases otherwise with
        | none => exact .nil
        | some stmt =>
            exact visit_varied hslack (.execute scope hchange hotherwise)
              (h.execute scope hchange hotherwise) hafter fun _ _ _ _ _ _ => .nil
  | loop condition body span =>
      simp only [Stmt.nodes, Variation.suits_cons, Variation.suits_append] at hsuits
      simp only [Stmt.relabel, Task.parts]
      exact visit_varied hslack (.repeatWhile scope hchange hsuits.2.1 hsuits.2.2)
        (h.repeatWhile scope hchange hsuits.2.1 hsuits.2.2) hmachine fun _ _ _ _ _ _ => .nil
  | function decl => exact .nil
  | ret value span =>
      cases value with
      | none => exact .nil
      | some value =>
          simp only [Stmt.nodes, Variation.suits_cons] at hsuits
          simp only [Stmt.relabel, Expr.relabel?, Task.parts]
          exact visit_evaluate h hslack hchange scope hsuits.2 hmachine fun _ _ _ _ _ _ => .nil

theorem executeAll_parts (scope : ScopeId) (last last' : Value) {stmts : List Stmt}
    (hsuits : c.Suits (Stmt.allNodes stmts)) (hmachine : c.Machines machine machine') :
    List.Forall₂ (Moment.Varied c)
      (Task.parts fuel machine (.executeAll scope last (stmts.map (Stmt.relabel change))))
      (Task.parts fuel machine' (.executeAll scope last' stmts)) := by
  cases stmts with
  | nil => exact .nil
  | cons stmt rest =>
      simp only [Stmt.allNodes, Variation.suits_append] at hsuits
      simp only [List.map_cons, Task.parts]
      refine visit_varied hslack (.execute scope hchange hsuits.1)
        (h.execute scope hchange hsuits.1) hmachine fun flow flow' hflow after after' hafter => ?_
      cases hflow with
      | normal hvalue =>
          exact visit_varied hslack (.executeAll scope hchange hsuits.2 hvalue)
            (h.executeAll scope hchange hsuits.2 hvalue) hafter fun _ _ _ _ _ _ => .nil
      | returned hvalue => exact .nil

theorem repeatWhile_parts (scope : ScopeId) {condition : Expr} {body : Block}
    (hcondition : c.Suits condition.nodes) (hbody : c.Suits body.nodes)
    (hmachine : c.Machines machine machine') :
    List.Forall₂ (Moment.Varied c)
      (Task.parts fuel machine
        (.repeatWhile scope (condition.relabel change) (body.relabel change)))
      (Task.parts fuel machine' (.repeatWhile scope condition body)) := by
  simp only [Task.parts]
  refine visit_evaluate h hslack hchange scope hcondition hmachine
    fun truth truth' htruth after after' hafter => ?_
  rw [htruth.resembles.isTruthy_eq]
  split
  · refine visit_block h hslack hchange scope (Block.nodes_eq body ▸ hbody) hafter _ _
      fun flow flow' hflow after after' hafter => ?_
    cases hflow with
    | normal hvalue =>
        exact visit_varied hslack (.repeatWhile scope hchange hcondition hbody)
          (h.repeatWhile scope hchange hcondition hbody) hafter fun _ _ _ _ _ _ => .nil
    | returned hvalue => exact .nil
  · exact .nil

end Step

theorem Task.Varied.parts {c : Comparison} (hslack : c.slack = 0) {task task' : Task}
    (htask : task.Varied c.toVariation task') (fuel : Nat) {machine machine' : Machine}
    (hmachine : c.Machines machine machine') :
    List.Forall₂ (Moment.Varied c) (task.parts fuel machine) (task'.parts fuel machine') := by
  have h := Run.mirrored c fuel
  cases htask with
  | evaluate scope hchange hsuits => exact evaluate_parts h hslack hchange scope hsuits hmachine
  | evaluateAll scope hchange hsuits =>
      exact evaluateAll_parts h hslack hchange scope hsuits hmachine
  | call span _ hcallable hargs => exact call_parts h hslack _ span hcallable hargs hmachine
  | execute scope hchange hsuits => exact execute_parts h hslack hchange scope hsuits hmachine
  | executeAll scope hchange hsuits =>
      exact executeAll_parts h hslack hchange scope _ _ hsuits hmachine
  | repeatWhile scope hchange hcondition hbody =>
      exact repeatWhile_parts h hslack hchange scope hcondition hbody hmachine

/-- By induction on the fuel: so are all the moments. -/
theorem Task.Varied.moments {c : Comparison} (hslack : c.slack = 0) (fuel : Nat)
    {task task' : Task} (htask : task.Varied c.toVariation task') {machine machine' : Machine}
    (hmachine : c.Machines machine machine') :
    List.Forall₂ (Moment.Varied c) (task.moments fuel machine) (task'.moments fuel machine') := by
  induction fuel generalizing task task' machine machine' with
  | zero => exact .cons ⟨rfl, htask, hmachine⟩ .nil
  | succ fuel ih =>
      refine .cons ⟨rfl, htask, hmachine⟩ ?_
      refine List.rel_flatMap (htask.parts hslack fuel hmachine) fun part part' hpart => ?_
      exact ih hpart.task hpart.machine

/-- A call of a built-in function, with the values that it is given. -/
structure BuiltinCall where
  builtin : Builtin
  args : List Value
  span : Span

inductive BuiltinCall.Varied (v : Variation) : BuiltinCall → BuiltinCall → Prop
  | call (builtin : Builtin) {args args' : List Value} {change : Relabel} (span : Span)
      (hargs : List.Forall₂ (Value.Varied v) args args') (hchange : v.changes change) :
      Varied v ⟨builtin, args, change.span span⟩ ⟨builtin, args', span⟩

def BuiltinCall.print? (call : BuiltinCall) : Option Print :=
  (call.builtin.prints? call.args).map (⟨·, call.span⟩)

def Moment.builtinCall? (moment : Moment) : Option BuiltinCall :=
  match moment.fuel, moment.task with
  | _ + 1, .call (.builtin builtin) args span => some ⟨builtin, args, span⟩
  | _, _ => none

theorem Moment.print?_eq (moment : Moment) :
    moment.print? = moment.builtinCall?.bind BuiltinCall.print? := by
  obtain ⟨fuel, task, machine⟩ := moment
  cases fuel with
  | zero => rfl
  | succ fuel =>
      cases task with
      | call callable args span => cases callable <;> rfl
      | _ => rfl

theorem Moment.Varied.builtinCall? {c : Comparison} {moment moment' : Moment}
    (h : moment.Varied c moment') :
    Option.Rel (BuiltinCall.Varied c.toVariation) moment.builtinCall? moment'.builtinCall? := by
  obtain ⟨fuel, task, machine⟩ := moment
  obtain ⟨fuel', task', machine'⟩ := moment'
  obtain ⟨rfl, htask, -⟩ := h
  cases fuel with
  | zero => exact .none
  | succ fuel =>
      cases htask with
      | call span hchange hcallable hargs =>
          cases hcallable with
          | builtin builtin => exact .some (.call builtin span hargs hchange)
          | closure => exact .none
      | _ => exact .none

namespace Program

/-- All calls of built-in functions in a run of a program, in order. -/
def builtinCalls (program : Program) (fuel : Nat) (machine : Machine) : List BuiltinCall :=
  (program.moments fuel machine).filterMap Moment.builtinCall?

theorem prints_eq (program : Program) (fuel : Nat) (machine : Machine) :
    program.prints fuel machine =
      (program.builtinCalls fuel machine).filterMap BuiltinCall.print? := by
  rw [prints, builtinCalls, List.filterMap_filterMap]
  exact List.filterMap_congr fun moment _ => moment.print?_eq

theorem builtinCalls_varied {c : Comparison} (hslack : c.slack = 0) {program : Program}
    {change : Relabel} (hchange : c.changes change) (hsuits : c.Suits program.nodes) (fuel : Nat)
    {machine machine' : Machine} (hmachine : c.Machines machine machine') :
    List.Forall₂ (BuiltinCall.Varied c.toVariation)
      ((program.relabel change).builtinCalls fuel machine)
      (program.builtinCalls fuel machine') := by
  have htask : Task.Varied c.toVariation
      (.executeAll Machine.globals .nothing (program.statements.map (Stmt.relabel change)))
      (.executeAll Machine.globals .nothing program.statements) :=
    .executeAll Machine.globals hchange hsuits .nothing
  exact List.rel_filterMap (fun _ _ hmoment => hmoment.builtinCall?)
    (htask.moments hslack fuel hmachine)

end Program

end Scriptlet
