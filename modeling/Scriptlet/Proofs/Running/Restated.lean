import Scriptlet.Proofs.Operators
import Scriptlet.Proofs.Running.Lockstep
import Scriptlet.Proofs.Scopes.Alike
import Scriptlet.Proofs.Tree.Restated

/-! Runs of programs that declare functions otherwise. Declarations live on inside of closures, so
machines agree but for the functions in the bodies of their functions; runs from such machines go
on side by side. -/

namespace Scriptlet

/-- The same function, whose body may declare functions otherwise. -/
inductive Callable.Restated (places : Span → Span → Prop) : Callable → Callable → Prop
  | builtin (builtin : Builtin) : Restated places (.builtin builtin) (.builtin builtin)
  | closure {identity : Nat} {name : String} {decl decl' : FnDecl} {scope : ScopeId}
      (hparams : decl.params.map Param.name = decl'.params.map Param.name)
      (hbody : List.Forall₂ (Stmt.Restated places) decl.body decl'.body) :
      Restated places (.closure ⟨identity, name, decl, scope⟩)
        (.closure ⟨identity, name, decl', scope⟩)

/-- The same value, up to the declarations inside of functions. -/
inductive Value.Restated (places : Span → Span → Prop) : Value → Value → Prop
  | plain {value : Value} (h : value.kind ≠ .function) : Restated places value value
  | function {callable callable' : Callable} (h : callable.Restated places callable') :
      Restated places (.function callable) (.function callable')

inductive Event.Restated (places : Span → Span → Prop) : Event → Event → Prop
  | same (event : Event) : Restated places event event
  | aborted {fault : RuntimeFault} {span span' : Span} (h : places span span') :
      Restated places (.aborted ⟨fault, span⟩) (.aborted ⟨fault, span'⟩)

inductive Stop.Restated (places : Span → Span → Prop) : Stop → Stop → Prop
  | fault {fault : RuntimeFault} {span span' : Span} (h : places span span') :
      Restated places (.fault ⟨fault, span⟩) (.fault ⟨fault, span'⟩)
  | outOfFuel : Restated places .outOfFuel .outOfFuel

inductive Flow.Restated (places : Span → Span → Prop) : Flow → Flow → Prop
  | normal {value value' : Value} (h : value.Restated places value') :
      Restated places (.normal value) (.normal value')
  | returned {value value' : Value} (h : value.Restated places value') :
      Restated places (.returned value) (.returned value')

/-- Machines in the same state, up to the declarations inside of functions. -/
structure Machine.Restated (places : Span → Span → Prop) (machine machine' : Machine) : Prop where
  scopes : machine.scopes.Alike (Value.Restated places) id machine'.scopes
  nextIdentity : machine.nextIdentity = machine'.nextIdentity
  depth : machine.depth = machine'.depth
  output : machine.output = machine'.output
  transcript : machine.transcript = machine'.transcript
  events : List.Forall₂ (Event.Restated places) machine.events.toList machine'.events.toList
  clock : machine.clock = machine'.clock
  readings : machine.readings = machine'.readings

section Values

variable {places : Span → Span → Prop} {value value' : Value} {callable callable' : Callable}

theorem Callable.Restated.same (h : callable.Restated places callable') :
    callable.same callable' := by
  cases h <;> simp [Callable.same]

theorem Callable.Restated.arity_eq (h : callable.Restated places callable') :
    callable.arity = callable'.arity := by
  cases h with
  | builtin => rfl
  | closure hparams => simpa [arity] using congrArg List.length hparams

theorem Callable.Restated.text_eq (h : callable.Restated places callable') :
    callable.text = callable'.text := by
  cases h <;> rfl

theorem Value.Restated.resembles (h : value.Restated places value') : value.Resembles value' := by
  cases h with
  | plain hkind => exact .plain hkind
  | function h => exact .function h.same

theorem Value.Restated.nothing : Value.nothing.Restated places .nothing :=
  .plain (by simp [kind])

theorem Value.Restated.toText_eq (h : value.Restated places value') :
    value.toText = value'.toText := by
  cases h with
  | plain => rfl
  | function h => exact h.text_eq

theorem Value.Restated.of_function (h : (Value.function callable).Restated places value') :
    ∃ callable', value' = .function callable' ∧ callable.Restated places callable' := by
  cases h with
  | plain hkind => exact absurd rfl hkind
  | function h => exact ⟨_, rfl, h⟩

theorem Value.Restated.eq_of_kind (h : value.Restated places value')
    (hkind : value.kind ≠ .function) : value = value' := by
  cases h with
  | plain => rfl
  | function => exact absurd rfl hkind

theorem Value.Restated.texts_eq {args args' : List Value}
    (h : List.Forall₂ (Value.Restated places) args args') :
    args.map toText = args'.map toText := by
  induction h with
  | nil => rfl
  | cons harg _ ih => rw [List.map_cons, List.map_cons, harg.toText_eq, ih]

end Values

theorem Flow.Restated.value {places : Span → Span → Prop} {flow flow' : Flow}
    (h : flow.Restated places flow') : flow.value.Restated places flow'.value := by
  cases h <;> assumption

def Run.restating (places : Span → Span → Prop) : Lockstep where
  machines := Machine.Restated places
  stops := Stop.Restated places
  excused _ := False

namespace Run

/-- Both runs print the same and observe the same, and come to the same value or to the same
fault. -/
abbrev Agrees {α β : Type} (places : Span → Span → Prop) (related : α → β → Prop) (run : Run α)
    (run' : Run β) : Prop :=
  InStep (restating places) related run run'

section Steps

variable {places : Span → Span → Prop} {scope : ScopeId} {name : String} {value value' : Value}
  {span span' : Span}

theorem agrees_fail {α β : Type} {related : α → β → Prop} (fault : RuntimeFault)
    (hplaces : places span span') :
    Agrees places related (fail fault span) (fail fault span') :=
  inStep_throw (Stop.Restated.fault hplaces)

theorem agrees_lookup :
    Agrees places (Option.Rel (Value.Restated places)) (lookup scope name) (lookup scope name) :=
  inStep_step _ _ _ _ (fun _ => rfl) (fun _ => rfl)
    fun _ _ hmachine => ⟨hmachine.scopes.get? scope name, hmachine⟩

theorem agrees_isBound : Agrees places Eq (isBound scope name) (isBound scope name) :=
  inStep_step _ _ _ _ (fun _ => rfl) (fun _ => rfl) fun _ _ hmachine =>
    ⟨congrArg Option.isSome (hmachine.scopes.resolve_eq scope name), hmachine⟩

theorem agrees_define (h : value.Restated places value') :
    Agrees places Eq (define scope name value) (define scope name value') :=
  inStep_step _ _ _ _ (fun _ => rfl) (fun _ => rfl) fun _ _ hmachine =>
    ⟨rfl, { hmachine with
      scopes := hmachine.scopes.define Function.injective_id scope name h }⟩

theorem agrees_assign (h : value.Restated places value') :
    Agrees places Eq (assign scope name value) (assign scope name value') :=
  inStep_assign (fun _ _ hmachine => hmachine.scopes.resolve_eq scope name)
    fun _ _ nearest hmachine => { hmachine with
      scopes := hmachine.scopes.define Function.injective_id nearest name h }

theorem agrees_inside : Agrees places Eq (inside scope) (inside scope) :=
  inStep_step _ _ _ _ (fun _ => rfl) (fun _ => rfl) fun _ _ hmachine =>
    ⟨hmachine.scopes.size, { hmachine with scopes := hmachine.scopes.addInside scope }⟩

theorem agrees_closure {decl decl' : FnDecl}
    (hparams : decl.params.map Param.name = decl'.params.map Param.name)
    (hbody : List.Forall₂ (Stmt.Restated places) decl.body decl'.body) :
    Agrees places (Value.Restated places) (closure name decl scope) (closure name decl' scope) :=
  inStep_step _ _ _ _ (fun _ => rfl) (fun _ => rfl) fun _ _ hmachine =>
    ⟨hmachine.nextIdentity ▸ .function (.closure hparams hbody), { hmachine with
      nextIdentity := congrArg (· + 1) hmachine.nextIdentity }⟩

theorem agrees_functionLiteral {decl decl' : FnDecl} (h : decl.Restated places decl') :
    Agrees places (Value.Restated places) (functionLiteral name decl scope)
      (functionLiteral name decl' scope) := by
  obtain ⟨hname, hanonymous, hparams, hbody⟩ := h
  unfold functionLiteral
  rw [hanonymous, hname]
  split
  · exact agrees_closure hparams hbody
  · refine inStep_bind agrees_inside ?_
    rintro own _ rfl
    refine inStep_bind (agrees_closure hparams hbody) fun value value' hvalue => ?_
    exact inStep_bind (agrees_define hvalue) fun _ _ _ => inStep_pure hvalue

theorem agrees_binding {run run' : Run Value}
    (hrun : Agrees places (Value.Restated places) run run') :
    Agrees places (Flow.Restated places)
      (run >>= fun value => define scope name value >>= fun _ => pure (.normal .nothing))
      (run' >>= fun value => define scope name value >>= fun _ => pure (.normal .nothing)) :=
  inStep_bind hrun fun _ _ hvalue =>
    inStep_bind (agrees_define hvalue) fun _ _ _ => inStep_pure (.normal .nothing)

theorem agrees_ofExcept {result : Except RuntimeFault Value} (h : Plain result)
    (hplaces : places span span') :
    Agrees places (Value.Restated places) (ofExcept span result) (ofExcept span' result) := by
  cases result with
  | error fault => exact agrees_fail fault hplaces
  | ok value => exact inStep_pure (.plain h)

theorem agrees_emit (text : String) (hplaces : places span span') :
    Agrees places (Value.Restated places) (emit text span) (emit text span') :=
  inStep_emit .nothing
    (fun machine machine' hmachine => ⟨by rw [hmachine.output], { hmachine with
      output := by rw [hmachine.output] }⟩)
    (fun machine machine' hmachine => { hmachine with
      transcript := by rw [hmachine.transcript] })
    (Stop.Restated.fault hplaces)

theorem agrees_readClock : Agrees places (Value.Restated places) readClock readClock :=
  inStep_step _ _ _ _ (fun _ => rfl) (fun _ => rfl) fun _ _ hmachine => by
    refine ⟨?_, { hmachine with readings := congrArg (· + 1) hmachine.readings }⟩
    rw [hmachine.clock, hmachine.readings]
    exact .plain (by simp [Value.kind])

theorem agrees_applyBuiltin (builtin : Builtin) {args args' : List Value}
    (hargs : List.Forall₂ (Value.Restated places) args args') (hplaces : places span span') :
    Agrees places (Value.Restated places) (applyBuiltin builtin args span)
      (applyBuiltin builtin args' span') := by
  unfold applyBuiltin
  rw [Value.Restated.texts_eq hargs]
  cases builtin with
  | clock => exact agrees_readClock
  | print => exact agrees_emit _ hplaces
  | println => exact agrees_emit _ hplaces

theorem agrees_nested {α β : Type} {related : α → β → Prop} {body : Run α} {body' : Run β}
    (h : Agrees places related body body') :
    Agrees places related (nested name body) (nested name body') := by
  refine inStep_nested h (fun machine machine' hmachine => ?_)
    fun _ _ hmachine => { hmachine with depth := congrArg (· - 1) hmachine.depth }
  refine { hmachine with depth := congrArg (· + 1) hmachine.depth, events := ?_ }
  simp only [Machine.entered, Array.toList_push, hmachine.depth]
  exact List.rel_append hmachine.events (.cons (.same _) .nil)

theorem agrees_enter {identity : Nat} {decl decl' : FnDecl} {args args' : List Value}
    (hparams : decl.params.map Param.name = decl'.params.map Param.name)
    (hargs : List.Forall₂ (Value.Restated places) args args') :
    Agrees places Eq (enter ⟨identity, name, decl, scope⟩ args)
      (enter ⟨identity, name, decl', scope⟩ args') := by
  have hnames : List.Forall₂ (fun param param' => param.name = id param'.name) decl.params
      decl'.params := by
    rwa [← List.forall₂_eq_eq_eq, List.forall₂_map_left_iff, List.forall₂_map_right_iff]
      at hparams
  refine inStep_bind agrees_inside ?_
  rintro inner _ rfl
  exact @inStep_bind _ _ _ _ Eq _ _ _ _ _ _
    (inStep_step _ _ _ _ (bindParams_run _ _ _) (bindParams_run _ _ _) fun _ _ hmachine =>
      ⟨rfl, { hmachine with
        scopes := hmachine.scopes.defineParams Function.injective_id inner hnames hargs }⟩)
    fun _ _ _ => inStep_pure rfl

end Steps

structure Agreeing (places : Span → Span → Prop) (fuel : Nat) : Prop where
  evaluate : ∀ (scope : ScopeId) {expr expr' : Expr}, expr.Restated places expr' →
    Agrees places (Value.Restated places) (evaluate fuel scope expr) (evaluate fuel scope expr')
  evaluateAll : ∀ (scope : ScopeId) {exprs exprs' : List Expr},
    List.Forall₂ (Expr.Restated places) exprs exprs' →
      Agrees places (List.Forall₂ (Value.Restated places)) (evaluateAll fuel scope exprs)
        (evaluateAll fuel scope exprs')
  call : ∀ {callable callable' : Callable} {args args' : List Value} {span span' : Span},
    callable.Restated places callable' → List.Forall₂ (Value.Restated places) args args' →
      places span span' → Agrees places (Value.Restated places) (call fuel callable args span)
        (call fuel callable' args' span')
  execute : ∀ (scope : ScopeId) {stmt stmt' : Stmt}, stmt.Restated places stmt' →
    Agrees places (Flow.Restated places) (execute fuel scope stmt) (execute fuel scope stmt')
  executeAll : ∀ (scope : ScopeId) {last last' : Value} {stmts stmts' : List Stmt},
    last.Restated places last' → List.Forall₂ (Stmt.Restated places) stmts stmts' →
      Agrees places (Flow.Restated places) (executeAll fuel scope last stmts)
        (executeAll fuel scope last' stmts')
  repeatWhile : ∀ (scope : ScopeId) {condition condition' : Expr} {body body' : Block},
    condition.Restated places condition' →
      List.Forall₂ (Stmt.Restated places) body.statements body'.statements →
        Agrees places (Flow.Restated places) (repeatWhile fuel scope condition body)
          (repeatWhile fuel scope condition' body')

section Step

variable {places : Span → Span → Prop} {fuel : Nat} (h : Agreeing places fuel) (scope : ScopeId)

include h

theorem Agreeing.evaluate_step {expr expr' : Expr} (hexpr : expr.Restated places expr') :
    Agrees places (Value.Restated places) (Run.evaluate (fuel + 1) scope expr)
      (Run.evaluate (fuel + 1) scope expr') := by
  cases hexpr with
  | @literal value =>
      simp only [Run.evaluate]
      refine inStep_pure (.plain ?_)
      cases value <;> simp [Value.ofLiteral, Value.kind]
  | «variable» hplaces =>
      simp only [Run.evaluate]
      refine inStep_bind agrees_lookup fun found found' hfound => ?_
      cases hfound with
      | none => exact agrees_fail _ hplaces
      | some hvalue => exact inStep_pure hvalue
  | assign hvalue hplaces =>
      simp only [Run.evaluate]
      refine inStep_bind agrees_isBound ?_
      rintro bound _ rfl
      split
      · refine inStep_bind (h.evaluate scope hvalue) fun value value' hvalue => ?_
        refine inStep_bind (agrees_assign hvalue) ?_
        rintro assigned _ rfl
        split
        · exact inStep_pure hvalue
        · exact agrees_fail _ hplaces
      · exact agrees_fail _ hplaces
  | group hinner =>
      simp only [Run.evaluate]
      exact h.evaluate scope hinner
  | @unary op _ _ _ _ hoperand hplaces =>
      simp only [Run.evaluate]
      refine inStep_bind (h.evaluate scope hoperand) fun value value' hvalue => ?_
      rw [op.apply_resembles hvalue.resembles]
      exact agrees_ofExcept (op.apply_plain value') hplaces
  | @binary op _ _ _ _ _ _ hleft hright hplaces =>
      simp only [Run.evaluate]
      refine inStep_bind (h.evaluate scope hleft) fun x x' hx => ?_
      refine inStep_bind (h.evaluate scope hright) fun y y' hy => ?_
      rw [op.apply_resembles hx.resembles hy.resembles]
      exact agrees_ofExcept (op.apply_plain x' y') hplaces
  | call hcallee hargs hplaces =>
      simp only [Run.evaluate]
      refine inStep_bind (h.evaluate scope hcallee) fun value value' hvalue => ?_
      cases value with
      | function callable =>
          obtain ⟨callable', rfl, hcallable⟩ := hvalue.of_function
          refine inStep_bind (h.evaluateAll scope hargs) fun values values' hvalues => ?_
          simp only [hvalues.length_eq, hcallable.arity_eq]
          split
          · exact h.call hcallable hvalues hplaces
          · exact agrees_fail _ hplaces
      | _ =>
          obtain rfl := hvalue.eq_of_kind (by simp [Value.kind])
          exact agrees_fail _ hplaces
  | function hdecl =>
      simp only [Run.evaluate, hdecl.name_eq]
      exact agrees_functionLiteral hdecl

theorem Agreeing.evaluateAll_step {exprs exprs' : List Expr}
    (hexprs : List.Forall₂ (Expr.Restated places) exprs exprs') :
    Agrees places (List.Forall₂ (Value.Restated places)) (Run.evaluateAll (fuel + 1) scope exprs)
      (Run.evaluateAll (fuel + 1) scope exprs') := by
  cases hexprs with
  | nil =>
      simp only [Run.evaluateAll]
      exact inStep_pure .nil
  | cons hexpr hrest =>
      simp only [Run.evaluateAll]
      refine inStep_bind (h.evaluate scope hexpr) fun value value' hvalue => ?_
      refine inStep_bind (h.evaluateAll scope hrest) fun values values' hvalues => ?_
      exact inStep_pure (.cons hvalue hvalues)

omit scope in
theorem Agreeing.call_step {callable callable' : Callable} {args args' : List Value}
    {span span' : Span} (hcallable : callable.Restated places callable')
    (hargs : List.Forall₂ (Value.Restated places) args args') (hplaces : places span span') :
    Agrees places (Value.Restated places) (Run.call (fuel + 1) callable args span)
      (Run.call (fuel + 1) callable' args' span') := by
  cases hcallable with
  | builtin builtin =>
      simp only [Run.call]
      exact agrees_applyBuiltin builtin hargs hplaces
  | closure hparams hbody =>
      simp only [Run.call]
      refine agrees_nested (inStep_bind (agrees_enter hparams hargs) ?_)
      rintro inner _ rfl
      refine inStep_bind (h.executeAll inner .nothing hbody) fun flow flow' hflow => ?_
      cases hflow with
      | normal => exact inStep_pure .nothing
      | returned hvalue => exact inStep_pure hvalue

theorem Agreeing.executeInside {stmts stmts' : List Stmt}
    (hstmts : List.Forall₂ (Stmt.Restated places) stmts stmts') :
    Agrees places (Flow.Restated places)
      (inside scope >>= fun inner => Run.executeAll fuel inner .nothing stmts)
      (inside scope >>= fun inner => Run.executeAll fuel inner .nothing stmts') := by
  refine inStep_bind agrees_inside ?_
  rintro inner _ rfl
  exact h.executeAll inner .nothing hstmts

theorem Agreeing.execute_step {stmt stmt' : Stmt} (hstmt : stmt.Restated places stmt') :
    Agrees places (Flow.Restated places) (Run.execute (fuel + 1) scope stmt)
      (Run.execute (fuel + 1) scope stmt') := by
  cases hstmt with
  | expression hexpr =>
      simp only [Run.execute]
      exact inStep_bind (h.evaluate scope hexpr) fun _ _ hvalue => inStep_pure (.normal hvalue)
  | binding hinit =>
      cases hinit with
      | none =>
          simp only [Run.execute]
          exact agrees_binding (inStep_pure .nothing)
      | some hinit =>
          -- a function is made by its binding, any other value by its expression
          have hvalue := h.evaluate scope hinit
          cases hinit with
          | function hdecl =>
              simp only [Run.execute]
              exact agrees_binding (agrees_functionLiteral hdecl)
          | _ =>
              simp only [Run.execute]
              exact agrees_binding hvalue
  | block hblock =>
      simp only [Run.execute]
      exact h.executeInside scope hblock
  | conditional hcondition hthen hotherwise =>
      -- `execute` has an equation for each kind of `else`
      cases hotherwise with
      | none =>
          simp only [Run.execute]
          refine inStep_bind (h.evaluate scope hcondition) fun truth truth' htruth => ?_
          rw [htruth.resembles.isTruthy_eq]
          split
          · exact h.executeInside scope hthen
          · exact inStep_pure (.normal .nothing)
      | some hstmt =>
          simp only [Run.execute]
          refine inStep_bind (h.evaluate scope hcondition) fun truth truth' htruth => ?_
          rw [htruth.resembles.isTruthy_eq]
          split
          · exact h.executeInside scope hthen
          · exact h.execute scope hstmt
  | loop hcondition hbody =>
      simp only [Run.execute]
      exact h.repeatWhile scope hcondition hbody
  | function hdecl =>
      obtain ⟨hname, hanonymous, hparams, hbody⟩ := hdecl
      simp only [Run.execute, hname, hanonymous]
      refine inStep_bind (agrees_closure hparams hbody) fun value value' hvalue => ?_
      refine inStep_bind (agrees_define hvalue) fun _ _ _ => inStep_pure (.normal ?_)
      split
      · exact hvalue
      · exact .nothing
  | ret hvalue =>
      cases hvalue with
      | none =>
          simp only [Run.execute]
          exact inStep_pure (.returned .nothing)
      | some hvalue =>
          simp only [Run.execute]
          exact inStep_bind (h.evaluate scope hvalue) fun _ _ hvalue =>
            inStep_pure (.returned hvalue)
  | restated hnamed hliteral hparams hbody =>
      -- a literal without a name is given that of the binding, and no scope of its own
      simp only [Run.execute, functionLiteral, hnamed, hliteral, if_true, Bool.false_eq_true,
        if_false]
      exact agrees_binding (agrees_closure hparams hbody)

theorem Agreeing.executeAll_step {last last' : Value} {stmts stmts' : List Stmt}
    (hlast : last.Restated places last')
    (hstmts : List.Forall₂ (Stmt.Restated places) stmts stmts') :
    Agrees places (Flow.Restated places) (Run.executeAll (fuel + 1) scope last stmts)
      (Run.executeAll (fuel + 1) scope last' stmts') := by
  cases hstmts with
  | nil =>
      simp only [Run.executeAll]
      exact inStep_pure (.normal hlast)
  | cons hstmt hrest =>
      simp only [Run.executeAll]
      refine inStep_bind (h.execute scope hstmt) fun flow flow' hflow => ?_
      cases hflow with
      | normal hvalue => exact h.executeAll scope hvalue hrest
      | returned hvalue => exact inStep_pure (.returned hvalue)

theorem Agreeing.repeatWhile_step {condition condition' : Expr} {body body' : Block}
    (hcondition : condition.Restated places condition')
    (hbody : List.Forall₂ (Stmt.Restated places) body.statements body'.statements) :
    Agrees places (Flow.Restated places) (Run.repeatWhile (fuel + 1) scope condition body)
      (Run.repeatWhile (fuel + 1) scope condition' body') := by
  simp only [Run.repeatWhile]
  refine inStep_bind (h.evaluate scope hcondition) fun truth truth' htruth => ?_
  rw [htruth.resembles.isTruthy_eq]
  split
  · rw [← bind_assoc, ← bind_assoc]
    refine inStep_bind (h.executeInside scope hbody) fun flow flow' hflow => ?_
    cases hflow with
    | normal => exact h.repeatWhile scope hcondition hbody
    | returned hvalue => exact inStep_pure (.returned hvalue)
  · exact inStep_pure (.normal .nothing)

end Step

theorem agreeing (places : Span → Span → Prop) (fuel : Nat) : Agreeing places fuel := by
  induction fuel with
  | zero =>
      have hstop : ∀ {α β : Type} {related : α → β → Prop},
          Agrees places related (throw .outOfFuel) (throw .outOfFuel) :=
        inStep_throw Stop.Restated.outOfFuel
      constructor <;> intros
      all_goals
        simp only [Run.evaluate, Run.evaluateAll, Run.call, Run.execute, Run.executeAll,
          Run.repeatWhile]
        exact hstop
  | succ fuel ih =>
      exact {
        evaluate := fun scope _ _ hexpr => ih.evaluate_step scope hexpr
        evaluateAll := fun scope _ _ hexprs => ih.evaluateAll_step scope hexprs
        call := ih.call_step
        execute := fun scope _ _ hstmt => ih.execute_step scope hstmt
        executeAll := fun scope _ _ _ _ hlast hstmts => ih.executeAll_step scope hlast hstmts
        repeatWhile := fun scope _ _ _ _ hcondition hbody =>
          ih.repeatWhile_step scope hcondition hbody }

end Run

end Scriptlet
