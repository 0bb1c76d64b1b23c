import Scriptlet.Proofs.Running.Task

/-! One rule for every kind of task: what its parts have to do for the whole. Whoever shows
something of all runs goes by these rules and never opens the evaluation itself. -/

namespace Scriptlet

section Rules

variable {visited : Task → Machine → Prop} {fuel : Nat} {scope : ScopeId} {machine : Machine}
  {stop : Stop → Machine → Prop}

section Evaluate

variable {ok : Value → Machine → Prop}

theorem carries_literal {value : Literal} {mark : Mark} (h : ok (.ofLiteral value) machine) :
    Carries visited fuel (.evaluate scope (.literal value mark)) machine ok stop := by
  unfold Carries
  simp only [Task.run, Run.evaluate]
  exact traces_nil (Run.ends_pure.mpr h)

theorem carries_variable {name : String} {mark : Mark}
    (hbound : ∀ value, machine.scopes.get? scope name = some value → ok value machine)
    (hunbound : machine.scopes.get? scope name = none →
      stop (.fault ⟨.undefined name, mark.span⟩) machine) :
    Carries visited fuel (.evaluate scope (.variable name mark)) machine ok stop := by
  unfold Carries
  simp only [Task.run, Run.evaluate]
  refine traces_nil (Run.ends_bind.mpr (Run.ends_lookup.mpr ?_))
  cases hget : machine.scopes.get? scope name with
  | some value => exact hbound value hget
  | none => exact hunbound hget

theorem carries_group {inner : Expr} {mark : Mark}
    (h : Visits visited fuel (.evaluate scope inner) machine ok stop) :
    Carries visited fuel (.evaluate scope (.group inner mark)) machine ok stop := by
  unfold Carries
  simp only [Task.run, Run.evaluate]
  exact traces_last (.evaluate scope inner) h

/-- A name that is not bound any more once there is a value would be an error, too. -/
theorem carries_assign {name : String} {value : Expr} {mark : Mark}
    (hbound : machine.scopes.contains scope name →
      Visits visited fuel (.evaluate scope value) machine
        (fun answer after =>
          match after.scopes.resolve scope name with
          | some nearest =>
              ok answer { after with scopes := after.scopes.define nearest name answer }
          | none => stop (.fault ⟨.undeclaredTarget name, mark.span⟩) after) stop)
    (hunbound : ¬machine.scopes.contains scope name →
      stop (.fault ⟨.undeclaredTarget name, mark.span⟩) machine) :
    Carries visited fuel (.evaluate scope (.assign name value mark)) machine ok stop := by
  unfold Carries
  simp only [Task.run, Run.evaluate, Task.parts]
  refine traces_behind (Run.ends_isBound.mpr ?_)
  by_cases hcontains : machine.scopes.contains scope name
  · simp only [hcontains, if_true]
    refine traces_visit (.evaluate scope value) ((hbound hcontains).mono (fun answer after h => ?_)
      fun _ _ hstop => hstop)
    refine traces_nil (Run.ends_bind.mpr (Run.ends_assign.mpr ?_))
    cases hresolve : after.scopes.resolve scope name with
    | some nearest => simpa [hresolve] using h
    | none => simpa [hresolve] using h
  · simp only [hcontains, Bool.false_eq_true, if_false]
    exact traces_nil (Run.ends_fail.mpr (hunbound hcontains))

theorem carries_unary {op : UnaryOp} {operand : Expr} {mark : Mark}
    (h : Visits visited fuel (.evaluate scope operand) machine
      (fun value after => Run.Settles (op.apply value) mark.span after ok stop) stop) :
    Carries visited fuel (.evaluate scope (.unary op operand mark)) machine ok stop := by
  unfold Carries
  simp only [Task.run, Run.evaluate]
  exact traces_visit (.evaluate scope operand)
    (h.mono (fun _ _ h => traces_nil (Run.ends_ofExcept.mpr h)) fun _ _ hstop => hstop)

theorem carries_binary {op : BinaryOp} {left right : Expr} {mark : Mark}
    (h : Visits visited fuel (.evaluate scope left) machine
      (fun x middle => Visits visited fuel (.evaluate scope right) middle
        (fun y after => Run.Settles (op.apply x y) mark.span after ok stop) stop) stop) :
    Carries visited fuel (.evaluate scope (.binary op left right mark)) machine ok stop := by
  unfold Carries
  simp only [Task.run, Run.evaluate]
  refine traces_visit (.evaluate scope left) (h.mono (fun _ _ h => ?_) fun _ _ hstop => hstop)
  exact traces_visit (.evaluate scope right)
    (h.mono (fun _ _ h => traces_nil (Run.ends_ofExcept.mpr h)) fun _ _ hstop => hstop)

theorem carries_call {callee : Expr} {args : List Expr} {mark : Mark}
    (h : Visits visited fuel (.evaluate scope callee) machine
      (fun value middle =>
        match value with
        | .function callable =>
            Visits visited fuel (.evaluateAll scope args) middle
              (fun values after =>
                if values.length = callable.arity then
                  Visits visited fuel (.call callable values mark.span) after ok stop
                else stop (.fault ⟨.arity callable.arity values.length, mark.span⟩) after) stop
        | other => stop (.fault ⟨.notCallable other.kind, mark.span⟩) middle) stop) :
    Carries visited fuel (.evaluate scope (.call callee args mark)) machine ok stop := by
  unfold Carries
  simp only [Task.run, Run.evaluate]
  refine traces_visit (.evaluate scope callee)
    (h.mono (fun value middle h => ?_) fun _ _ hstop => hstop)
  cases value with
  | function callable =>
      refine traces_visit (.evaluateAll scope args)
        (h.mono (fun values after h => ?_) fun _ _ hstop => hstop)
      split at h
      · rename_i hlength
        simp only [hlength, if_true]
        exact traces_last (.call callable values mark.span) h
      · rename_i hlength
        simp only [hlength, if_false]
        exact traces_nil (Run.ends_fail.mpr h)
  | _ => exact traces_nil (Run.ends_fail.mpr h)

theorem carries_function {decl : FnDecl} {mark : Mark}
    (h : (Run.functionLiteral decl.name decl scope).Ends machine ok stop) :
    Carries visited fuel (.evaluate scope (.function decl mark)) machine ok stop := by
  unfold Carries
  simp only [Task.run, Run.evaluate]
  exact traces_nil h

end Evaluate

section EvaluateAll

variable {ok : List Value → Machine → Prop}

theorem carries_evaluateAll_nil (h : ok [] machine) :
    Carries visited fuel (.evaluateAll scope []) machine ok stop := by
  unfold Carries
  simp only [Task.run, Run.evaluateAll]
  exact traces_nil (Run.ends_pure.mpr h)

theorem carries_evaluateAll_cons {expr : Expr} {rest : List Expr}
    (h : Visits visited fuel (.evaluate scope expr) machine
      (fun value middle => Visits visited fuel (.evaluateAll scope rest) middle
        (fun values after => ok (value :: values) after) stop) stop) :
    Carries visited fuel (.evaluateAll scope (expr :: rest)) machine ok stop := by
  unfold Carries
  simp only [Task.run, Run.evaluateAll]
  refine traces_visit (.evaluate scope expr) (h.mono (fun _ _ h => ?_) fun _ _ hstop => hstop)
  exact traces_visit (.evaluateAll scope rest)
    (h.mono (fun _ _ h => traces_nil (Run.ends_pure.mpr h)) fun _ _ hstop => hstop)

end EvaluateAll

section Call

variable {ok : Value → Machine → Prop} {args : List Value} {span : Span}

theorem carries_builtin {builtin : Builtin}
    (hok : ∀ value after, after.scopes = machine.scopes → value.isAnswer builtin → ok value after)
    (hstop : ∀ after, after.scopes = machine.scopes → stop (.fault ⟨.outputFull, span⟩) after) :
    Carries visited fuel (.call (.builtin builtin) args span) machine ok stop := by
  unfold Carries
  simp only [Task.run, Run.call]
  exact traces_nil (Run.ends_applyBuiltin hok hstop)

theorem carries_closure {closure : Closure}
    (h : Visits visited fuel (.executeAll machine.scopes.size .nothing closure.decl.body)
      { machine.entered closure.name with
        scopes := machine.scopes.enter closure.scope closure.decl.params args }
      (fun flow after =>
        match flow with
        | .returned value => ok value after.left
        | .normal _ => ok .nothing after.left)
      (fun reason after => stop reason after.left)) :
    Carries visited fuel (.call (.closure closure) args span) machine ok stop := by
  unfold Carries
  simp only [Task.run, Run.call, Task.parts]
  refine traces_nested (traces_behind (Run.ends_enter.mpr ?_))
  refine traces_visit (.executeAll machine.scopes.size .nothing closure.decl.body)
    (h.mono (fun flow after h => ?_) fun _ _ hstop => hstop)
  cases flow <;> exact traces_nil (Run.ends_pure.mpr h)

end Call

section Execute

variable {ok : Flow → Machine → Prop}

theorem carries_expression {expr : Expr}
    (h : Visits visited fuel (.evaluate scope expr) machine
      (fun value after => ok (.normal value) after) stop) :
    Carries visited fuel (.execute scope (.expression expr)) machine ok stop := by
  unfold Carries
  simp only [Task.run, Run.execute]
  exact traces_visit (.evaluate scope expr)
    (h.mono (fun _ _ h => traces_nil (Run.ends_pure.mpr h)) fun _ _ hstop => hstop)

theorem carries_uninitialized {name : String} {declared : Option TypeExpr} {mark : Mark}
    (h : ok (.normal .nothing)
      { machine with scopes := machine.scopes.define scope name .nothing }) :
    Carries visited fuel (.execute scope (.binding name declared none mark)) machine ok stop := by
  unfold Carries
  simp only [Task.run, Run.execute]
  exact traces_nil h

theorem carries_binding {name : String} {declared : Option TypeExpr} {init : Expr} {mark : Mark}
    (hfunction : ∀ decl slot, init = .function decl slot →
      (Run.functionLiteral name decl scope).Ends machine
        (fun value after => ok (.normal .nothing)
          { after with scopes := after.scopes.define scope name value }) stop)
    (hother : (∀ decl slot, init ≠ .function decl slot) →
      Visits visited fuel (.evaluate scope init) machine
        (fun value after => ok (.normal .nothing)
          { after with scopes := after.scopes.define scope name value }) stop) :
    Carries visited fuel (.execute scope (.binding name declared (some init) mark)) machine ok
      stop := by
  cases init
  case function decl slot =>
    unfold Carries
    simp only [Task.run, Run.execute]
    exact traces_nil (Run.ends_bind.mpr (hfunction decl slot rfl))
  all_goals
    have hvisit := hother (by simp)
    unfold Carries
    simp only [Task.run, Run.execute]
    refine traces_visit (.evaluate scope _) (hvisit.mono (fun _ _ h => ?_) fun _ _ hstop => hstop)
    exact traces_nil h

theorem carries_block {block : Block}
    (h : Visits visited fuel (.executeAll machine.scopes.size .nothing block.statements)
      { machine with scopes := (machine.scopes.addInside scope).1 } ok stop) :
    Carries visited fuel (.execute scope (.block block)) machine ok stop := by
  unfold Carries
  simp only [Task.run, Run.execute, Task.parts]
  refine traces_behind (Run.ends_inside.mpr ?_)
  exact traces_last (.executeAll machine.scopes.size .nothing block.statements) h

theorem carries_conditional {condition : Expr} {thenBlock : Block} {otherwise : Option Stmt}
    {span : Span}
    (h : Visits visited fuel (.evaluate scope condition) machine
      (fun truth middle =>
        if truth.isTruthy then
          Visits visited fuel (.executeAll middle.scopes.size .nothing thenBlock.statements)
            { middle with scopes := (middle.scopes.addInside scope).1 } ok stop
        else
          match otherwise with
          | some stmt => Visits visited fuel (.execute scope stmt) middle ok stop
          | none => ok (.normal .nothing) middle) stop) :
    Carries visited fuel (.execute scope (.conditional condition thenBlock otherwise span)) machine
      ok stop := by
  have hrun : Run.execute (fuel + 1) scope (.conditional condition thenBlock otherwise span) = (do
      if (← Run.evaluate fuel scope condition).isTruthy then
        Run.executeAll fuel (← Run.inside scope) .nothing thenBlock.statements
      else
        match otherwise with
        | some stmt => Run.execute fuel scope stmt
        | none => return .normal .nothing) := by
    cases otherwise <;> simp only [Run.execute]
  unfold Carries
  simp only [Task.run, hrun, Task.parts]
  refine traces_visit (.evaluate scope condition)
    (h.mono (fun truth middle h => ?_) fun _ _ hstop => hstop)
  by_cases htruth : truth.isTruthy
  · simp only [htruth, if_true] at h ⊢
    refine traces_behind (Run.ends_inside.mpr ?_)
    exact traces_last (.executeAll middle.scopes.size .nothing thenBlock.statements) h
  · simp only [htruth, Bool.false_eq_true, if_false] at h ⊢
    cases otherwise with
    | some stmt => exact traces_last (.execute scope stmt) h
    | none => exact traces_nil (Run.ends_pure.mpr h)

theorem carries_loop {condition : Expr} {body : Block} {span : Span}
    (h : Visits visited fuel (.repeatWhile scope condition body) machine ok stop) :
    Carries visited fuel (.execute scope (.loop condition body span)) machine ok stop := by
  unfold Carries
  simp only [Task.run, Run.execute]
  exact traces_last (.repeatWhile scope condition body) h

theorem carries_declaration {decl : FnDecl}
    (h : ∀ value, value = .function (.closure ⟨machine.nextIdentity, decl.name, decl, scope⟩) →
      ok (.normal (if decl.anonymous then value else .nothing))
        { machine with
          nextIdentity := machine.nextIdentity + 1
          scopes := machine.scopes.define scope decl.name value }) :
    Carries visited fuel (.execute scope (.function decl)) machine ok stop := by
  unfold Carries
  simp only [Task.run, Run.execute]
  exact traces_nil (h _ rfl)

theorem carries_finish {span : Span} (h : ok (.returned .nothing) machine) :
    Carries visited fuel (.execute scope (.ret none span)) machine ok stop := by
  unfold Carries
  simp only [Task.run, Run.execute]
  exact traces_nil (Run.ends_pure.mpr h)

theorem carries_ret {value : Expr} {span : Span}
    (h : Visits visited fuel (.evaluate scope value) machine
      (fun answer after => ok (.returned answer) after) stop) :
    Carries visited fuel (.execute scope (.ret (some value) span)) machine ok stop := by
  unfold Carries
  simp only [Task.run, Run.execute]
  exact traces_visit (.evaluate scope value)
    (h.mono (fun _ _ h => traces_nil (Run.ends_pure.mpr h)) fun _ _ hstop => hstop)

theorem carries_executeAll_nil {last : Value} (h : ok (.normal last) machine) :
    Carries visited fuel (.executeAll scope last []) machine ok stop := by
  unfold Carries
  simp only [Task.run, Run.executeAll]
  exact traces_nil (Run.ends_pure.mpr h)

theorem carries_executeAll_cons {last : Value} {stmt : Stmt} {rest : List Stmt}
    (h : Visits visited fuel (.execute scope stmt) machine
      (fun flow middle =>
        match flow with
        | .normal value => Visits visited fuel (.executeAll scope value rest) middle ok stop
        | .returned value => ok (.returned value) middle) stop) :
    Carries visited fuel (.executeAll scope last (stmt :: rest)) machine ok stop := by
  unfold Carries
  simp only [Task.run, Run.executeAll]
  refine traces_visit (.execute scope stmt)
    (h.mono (fun flow middle h => ?_) fun _ _ hstop => hstop)
  cases flow with
  | normal value => exact traces_last (.executeAll scope value rest) h
  | returned value => exact traces_nil (Run.ends_pure.mpr h)

theorem carries_repeatWhile {condition : Expr} {body : Block}
    (h : Visits visited fuel (.evaluate scope condition) machine
      (fun truth middle =>
        if truth.isTruthy then
          Visits visited fuel (.executeAll middle.scopes.size .nothing body.statements)
            { middle with scopes := (middle.scopes.addInside scope).1 }
            (fun flow after =>
              match flow with
              | .normal _ => Visits visited fuel (.repeatWhile scope condition body) after ok stop
              | .returned value => ok (.returned value) after) stop
        else ok (.normal .nothing) middle) stop) :
    Carries visited fuel (.repeatWhile scope condition body) machine ok stop := by
  unfold Carries
  simp only [Task.run, Run.repeatWhile, Task.parts]
  refine traces_visit (.evaluate scope condition)
    (h.mono (fun truth middle h => ?_) fun _ _ hstop => hstop)
  by_cases htruth : truth.isTruthy
  · simp only [htruth, if_true] at h ⊢
    refine traces_behind (Run.ends_inside.mpr ?_)
    refine traces_visit (.executeAll middle.scopes.size .nothing body.statements)
      (h.mono (fun flow after h => ?_) fun _ _ hstop => hstop)
    cases flow with
    | normal value => exact traces_last (.repeatWhile scope condition body) h
    | returned value => exact traces_nil (Run.ends_pure.mpr h)
  · simp only [htruth, Bool.false_eq_true, if_false] at h ⊢
    exact traces_nil (Run.ends_pure.mpr h)

end Execute

end Rules

end Scriptlet
