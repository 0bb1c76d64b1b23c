import Scriptlet.Proofs.Operators
import Scriptlet.Proofs.Running.Lockstep
import Scriptlet.Proofs.Running.Varied

/-! Runs of one tree under two sets of labels. On machines that agree but for labels they print the
same and come to the same values or to the same fault, as long as the fuel of the first one
lasts. -/

namespace Scriptlet

/-- What two runs are compared by: how labels may differ, what is known of the two outputs and of
the two transcripts, which take the same texts, and how much more fuel the second run has. -/
structure Comparison extends Variation where
  outputs : Output → Output → Prop
  transcripts : Option String → Option String → Prop
  slack : Nat
  write : ∀ {output output' : Output} {text text' : String}, outputs output output' →
    SameText toVariation text text' →
      outputs (output.write text).1 (output'.write text').1 ∧
        (output.write text).2 = (output'.write text').2
  extend : ∀ {transcript transcript' : Option String} {text text' : String},
    transcripts transcript transcript' → SameText toVariation text text' →
      transcripts (transcript.map (· ++ text)) (transcript'.map (· ++ text'))

/-- Where functions keep their names, the same is printed. -/
def Comparison.exact (v : Variation) (slack : Nat)
    (hfixed : ∀ name, v.known name → v.rename name = name) : Comparison where
  toVariation := v
  outputs := Eq
  transcripts := Eq
  slack := slack
  write := by
    rintro output _ text text' rfl h
    obtain rfl := h.eq_of_fixed hfixed
    exact ⟨rfl, rfl⟩
  extend := by
    rintro transcript _ text text' rfl h
    obtain rfl := h.eq_of_fixed hfixed
    rfl

/-- The machines agree but for labels, and so does what they have printed. -/
structure Comparison.Machines (c : Comparison) (machine machine' : Machine) : Prop where
  varied : machine.Varied c.toVariation machine'
  outputs : c.outputs machine.output machine'.output
  transcripts : c.transcripts machine.transcript machine'.transcript

def Comparison.lockstep (c : Comparison) : Lockstep where
  machines := c.Machines
  stops := Stop.Varied c.toVariation
  excused reason := c.slack ≠ 0 ∧ reason = .outOfFuel

inductive Flow.Varied (v : Variation) : Flow → Flow → Prop
  | normal {value value' : Value} (h : value.Varied v value') :
      Varied v (.normal value) (.normal value')
  | returned {value value' : Value} (h : value.Varied v value') :
      Varied v (.returned value) (.returned value')

theorem Flow.Varied.value {v : Variation} {flow flow' : Flow} (h : flow.Varied v flow') :
    flow.value.Varied v flow'.value := by
  cases h <;> assumption

theorem Value.Varied.nothing {v : Variation} : Value.nothing.Varied v .nothing :=
  .plain (by simp [kind])

namespace Run

variable {α β α' β' : Type} {related : α → β → Prop} {related' : α' → β' → Prop}
  {c : Comparison}

/-- The second run ends as the first one does. If it has more fuel, then nothing is said when the
first one runs out of it. -/
def Mirrors (c : Comparison) (related : α → β → Prop) (run : Run α) (run' : Run β) : Prop :=
  ∀ machine machine', c.Machines machine machine' → run.Ends machine
    (fun a after => ∃ b after', run' machine' = .ok b after' ∧ related a b ∧
      c.Machines after after')
    (fun reason after => c.slack ≠ 0 ∧ reason = .outOfFuel ∨ ∃ reason' after',
      run' machine' = .error reason' after' ∧ reason.Varied c.toVariation reason' ∧
        c.Machines after after')

theorem mirrors_iff {run : Run α} {run' : Run β} :
    Mirrors c related run run' ↔ InStep c.lockstep related run run' := Iff.rfl

section Rules

theorem mirrors_pure {a : α} {b : β} (h : related a b) :
    Mirrors c related (pure a) (pure b) :=
  mirrors_iff.mpr (inStep_pure h)

theorem mirrors_fail (fault : RuntimeFault) {change : Relabel} (hchange : c.changes change)
    (span : Span) : Mirrors c related (fail fault (change.span span)) (fail fault span) :=
  mirrors_iff.mpr (inStep_throw (Stop.Varied.fault hchange))

/-- All the fuel of the second run is what it has more. -/
theorem mirrors_outOfFuel {run : Run α} {run' : Run β} (h : run = throw .outOfFuel)
    (h' : c.slack = 0 → run' = throw .outOfFuel) : Mirrors c related run run' := by
  subst h
  by_cases hslack : c.slack = 0
  · obtain rfl := h' hslack
    exact mirrors_iff.mpr (inStep_throw Stop.Varied.outOfFuel)
  · have hexcused : c.lockstep.excused .outOfFuel := ⟨hslack, rfl⟩
    exact mirrors_iff.mpr (inStep_excused hexcused run')

theorem mirrors_bind {run : Run α} {run' : Run β} {next : α → Run α'} {next' : β → Run β'}
    (h : Mirrors c related run run')
    (hnext : ∀ a b, related a b → Mirrors c related' (next a) (next' b)) :
    Mirrors c related' (run >>= next) (run' >>= next') :=
  mirrors_iff.mpr (inStep_bind h hnext)

theorem mirrors_step {run : Run α} {run' : Run β} (value : Machine → α) (value' : Machine → β)
    (after after' : Machine → Machine)
    (hrun : ∀ machine, run machine = .ok (value machine) (after machine))
    (hrun' : ∀ machine, run' machine = .ok (value' machine) (after' machine))
    (h : ∀ machine machine', c.Machines machine machine' →
      related (value machine) (value' machine') ∧ c.Machines (after machine) (after' machine')) :
    Mirrors c related run run' :=
  mirrors_iff.mpr (inStep_step value value' after after' hrun hrun' h)

end Rules

section Steps

variable {scope : ScopeId} {name : String} {value value' : Value} {decl : FnDecl}
  {change : Relabel}

theorem mirrors_lookup (hname : c.rename name = name) :
    Mirrors c (Option.Rel (Value.Varied c.toVariation)) (lookup scope name) (lookup scope name) :=
  mirrors_step _ _ _ _ (fun _ => rfl) (fun _ => rfl)
    fun _ _ hmachine => ⟨hmachine.varied.scopes.get? scope hname, hmachine⟩

theorem mirrors_isBound (hname : c.rename name = name) :
    Mirrors c Eq (isBound scope name) (isBound scope name) :=
  mirrors_step _ _ _ _ (fun _ => rfl) (fun _ => rfl) fun _ _ hmachine =>
    ⟨by rw [Scopes.contains, Scopes.contains, hmachine.varied.scopes.resolve_eq scope hname],
      hmachine⟩

theorem mirrors_define (name : String) (h : value.Varied c.toVariation value') :
    Mirrors c Eq (define scope (c.rename name) value) (define scope name value') :=
  mirrors_step _ _ _ _ (fun _ => rfl) (fun _ => rfl) fun _ _ hmachine =>
    ⟨rfl, { hmachine.varied with
      scopes := hmachine.varied.scopes.define_renamed scope name h },
      hmachine.outputs, hmachine.transcripts⟩

theorem mirrors_define_fixed (hname : c.rename name = name)
    (h : value.Varied c.toVariation value') :
    Mirrors c Eq (define scope name value) (define scope name value') := by
  have hdefine := @mirrors_define c scope value value' name h
  rwa [hname] at hdefine

theorem mirrors_assign (hname : c.rename name = name) (h : value.Varied c.toVariation value') :
    Mirrors c Eq (assign scope name value) (assign scope name value') :=
  mirrors_iff.mpr (inStep_assign
    (fun _ _ hmachine => hmachine.varied.scopes.resolve_eq scope hname)
    fun _ _ nearest hmachine => ⟨{ hmachine.varied with
      scopes := hmachine.varied.scopes.define nearest hname h },
      hmachine.outputs, hmachine.transcripts⟩)

theorem mirrors_inside : Mirrors c Eq (inside scope) (inside scope) :=
  mirrors_step _ _ _ _ (fun _ => rfl) (fun _ => rfl) fun _ _ hmachine =>
    ⟨hmachine.varied.scopes.size, { hmachine.varied with
      scopes := hmachine.varied.scopes.addInside scope },
      hmachine.outputs, hmachine.transcripts⟩

theorem mirrors_closure (hchange : c.changes change) (hsuits : c.Suits decl.nodes)
    (hname : c.known name) :
    Mirrors c (Value.Varied c.toVariation) (closure (c.rename name) (decl.relabel change) scope)
      (closure name decl scope) :=
  mirrors_step _ _ _ _ (fun _ => rfl) (fun _ => rfl) fun _ _ hmachine =>
    ⟨hmachine.varied.nextIdentity ▸ .function (.closure hchange hsuits hname),
      { hmachine.varied with
        nextIdentity := congrArg (· + 1) hmachine.varied.nextIdentity },
      hmachine.outputs, hmachine.transcripts⟩

theorem mirrors_functionLiteral (hchange : c.changes change) (hsuits : c.Suits decl.nodes)
    (hname : c.known name) :
    Mirrors c (Value.Varied c.toVariation)
      (functionLiteral (c.rename name) (decl.relabel change) scope)
      (functionLiteral name decl scope) := by
  unfold functionLiteral
  rw [FnDecl.relabel_anonymous, FnDecl.relabel_name hchange hsuits]
  split
  · exact mirrors_closure hchange hsuits hname
  · refine mirrors_bind mirrors_inside ?_
    rintro own _ rfl
    refine mirrors_bind (mirrors_closure hchange hsuits hname) fun value value' hvalue => ?_
    exact mirrors_bind (mirrors_define decl.name hvalue) fun _ _ _ => mirrors_pure hvalue

theorem mirrors_ofExcept {result : Except RuntimeFault Value} (h : Plain result)
    (hchange : c.changes change) (span : Span) :
    Mirrors c (Value.Varied c.toVariation) (ofExcept (change.span span) result)
      (ofExcept span result) := by
  cases result with
  | error fault => exact mirrors_fail fault hchange span
  | ok value => exact mirrors_pure (.plain h)

theorem mirrors_emit {text text' : String} (h : SameText c.toVariation text text')
    (hchange : c.changes change) (span : Span) :
    Mirrors c (Value.Varied c.toVariation) (emit text (change.span span)) (emit text' span) := by
  refine mirrors_iff.mpr (inStep_emit .nothing (fun machine machine' hmachine => ?_)
    (fun machine machine' hmachine => ?_) (Stop.Varied.fault hchange))
  · obtain ⟨houtputs, hfits⟩ := c.write hmachine.outputs h
    exact ⟨hfits, { hmachine.varied with }, houtputs, hmachine.transcripts⟩
  · exact ⟨{ hmachine.varied with }, hmachine.outputs, c.extend hmachine.transcripts h⟩

theorem mirrors_readClock : Mirrors c (Value.Varied c.toVariation) readClock readClock :=
  mirrors_step _ _ _ _ (fun _ => rfl) (fun _ => rfl) fun _ _ hmachine => by
    obtain ⟨hvaried, houtputs, htranscripts⟩ := hmachine
    refine ⟨?_, { hvaried with readings := congrArg (· + 1) hvaried.readings }, houtputs,
      htranscripts⟩
    rw [hvaried.clock, hvaried.readings]
    exact .plain (by simp [Value.kind])

theorem mirrors_applyBuiltin (builtin : Builtin) {args args' : List Value}
    (hargs : List.Forall₂ (Value.Varied c.toVariation) args args') (hchange : c.changes change)
    (span : Span) :
    Mirrors c (Value.Varied c.toVariation) (applyBuiltin builtin args (change.span span))
      (applyBuiltin builtin args' span) := by
  have htext := SameText.join hargs
  cases builtin with
  | clock => exact mirrors_readClock
  | print => exact mirrors_emit htext hchange span
  | println => exact mirrors_emit (htext.append (.same _)) hchange span

theorem mirrors_nested {name' : String} {body : Run α} {body' : Run β}
    (h : Mirrors c related body body') :
    Mirrors c related (nested name body) (nested name' body') :=
  mirrors_iff.mpr (inStep_nested h
    (fun _ _ hmachine =>
      ⟨{ hmachine.varied with depth := congrArg (· + 1) hmachine.varied.depth },
        hmachine.outputs, hmachine.transcripts⟩)
    fun _ _ hmachine =>
      ⟨{ hmachine.varied with depth := congrArg (· - 1) hmachine.varied.depth },
        hmachine.outputs, hmachine.transcripts⟩)

theorem mirrors_enter {name' : String} (hsuits : c.Suits decl.nodes) (change : Relabel)
    (identity : Nat) {args args' : List Value}
    (hargs : List.Forall₂ (Value.Varied c.toVariation) args args') :
    Mirrors c Eq (enter ⟨identity, name, decl.relabel change, scope⟩ args)
      (enter ⟨identity, name', decl, scope⟩ args') := by
  refine mirrors_bind mirrors_inside ?_
  rintro inner _ rfl
  refine @mirrors_bind _ _ _ _ Eq _ _ _ _ _ _
    (mirrors_step _ _ _ _ (bindParams_run _ _ _) (bindParams_run _ _ _)
      fun _ _ hmachine => ⟨rfl, ?_, hmachine.outputs, hmachine.transcripts⟩)
    fun _ _ _ => mirrors_pure rfl
  rw [FnDecl.relabel_params]
  exact { hmachine.varied with
    scopes := hmachine.varied.scopes.defineParams inner hsuits.fixes_param change hargs }

end Steps

/-- With the fuel given, every run of a tree with changed labels is mirrored by the run of the
tree. -/
structure Mirrored (c : Comparison) (fuel : Nat) : Prop where
  evaluate : ∀ (scope : ScopeId) {expr : Expr} {change : Relabel}, c.changes change →
    c.Suits expr.nodes → Mirrors c (Value.Varied c.toVariation)
      (evaluate fuel scope (expr.relabel change)) (evaluate (c.slack + fuel) scope expr)
  evaluateAll : ∀ (scope : ScopeId) {exprs : List Expr} {change : Relabel}, c.changes change →
    c.Suits (Expr.allNodes exprs) → Mirrors c (List.Forall₂ (Value.Varied c.toVariation))
      (evaluateAll fuel scope (exprs.map (Expr.relabel change)))
      (evaluateAll (c.slack + fuel) scope exprs)
  call : ∀ {callable callable' : Callable} {args args' : List Value} {change : Relabel}
    (span : Span), callable.Varied c.toVariation callable' →
    List.Forall₂ (Value.Varied c.toVariation) args args' → c.changes change →
      Mirrors c (Value.Varied c.toVariation) (call fuel callable args (change.span span))
        (call (c.slack + fuel) callable' args' span)
  execute : ∀ (scope : ScopeId) {stmt : Stmt} {change : Relabel}, c.changes change →
    c.Suits stmt.nodes → Mirrors c (Flow.Varied c.toVariation)
      (execute fuel scope (stmt.relabel change)) (execute (c.slack + fuel) scope stmt)
  executeAll : ∀ (scope : ScopeId) {last last' : Value} {stmts : List Stmt} {change : Relabel},
    c.changes change → c.Suits (Stmt.allNodes stmts) → last.Varied c.toVariation last' →
      Mirrors c (Flow.Varied c.toVariation)
        (executeAll fuel scope last (stmts.map (Stmt.relabel change)))
        (executeAll (c.slack + fuel) scope last' stmts)
  repeatWhile : ∀ (scope : ScopeId) {condition : Expr} {body : Block} {change : Relabel},
    c.changes change → c.Suits condition.nodes → c.Suits body.nodes →
      Mirrors c (Flow.Varied c.toVariation)
        (repeatWhile fuel scope (condition.relabel change) (body.relabel change))
        (repeatWhile (c.slack + fuel) scope condition body)

section Step

variable {fuel : Nat} {change : Relabel} (h : Mirrored c fuel) (hchange : c.changes change)
  (scope : ScopeId)

include h hchange

theorem Mirrored.evaluate_step {expr : Expr} (hsuits : c.Suits expr.nodes) :
    Mirrors c (Value.Varied c.toVariation) (Run.evaluate (fuel + 1) scope (expr.relabel change))
      (Run.evaluate (c.slack + fuel + 1) scope expr) := by
  cases expr with
  | literal value mark =>
      simp only [Expr.relabel, Run.evaluate]
      refine mirrors_pure (.plain ?_)
      cases value <;> simp [Value.ofLiteral, Value.kind]
  | «variable» name mark =>
      simp only [Expr.nodes, Variation.suits_cons, Node.plainNames,
        List.forall_mem_singleton] at hsuits
      simp only [Expr.relabel, Run.evaluate]
      refine mirrors_bind (mirrors_lookup hsuits.1.1) fun found found' hfound => ?_
      cases hfound with
      | none => exact mirrors_fail _ hchange _
      | some hvalue => exact mirrors_pure hvalue
  | assign name value mark =>
      simp only [Expr.nodes, Variation.suits_cons, Node.plainNames,
        List.forall_mem_singleton] at hsuits
      obtain ⟨⟨hname, -⟩, hvalue⟩ := hsuits
      simp only [Expr.relabel, Run.evaluate]
      refine mirrors_bind (mirrors_isBound hname) ?_
      rintro bound _ rfl
      split
      · refine mirrors_bind (h.evaluate scope hchange hvalue) fun value value' hvalue => ?_
        refine mirrors_bind (mirrors_assign hname hvalue) ?_
        rintro assigned _ rfl
        split
        · exact mirrors_pure hvalue
        · exact mirrors_fail _ hchange _
      · exact mirrors_fail _ hchange _
  | group inner mark =>
      simp only [Expr.nodes, Variation.suits_cons] at hsuits
      simp only [Expr.relabel, Run.evaluate]
      exact h.evaluate scope hchange hsuits.2
  | unary op operand mark =>
      simp only [Expr.nodes, Variation.suits_cons] at hsuits
      simp only [Expr.relabel, Run.evaluate]
      refine mirrors_bind (h.evaluate scope hchange hsuits.2) fun value value' hvalue => ?_
      rw [op.apply_resembles hvalue.resembles]
      exact mirrors_ofExcept (op.apply_plain value') hchange _
  | binary op left right mark =>
      simp only [Expr.nodes, Variation.suits_cons, Variation.suits_append] at hsuits
      simp only [Expr.relabel, Run.evaluate]
      refine mirrors_bind (h.evaluate scope hchange hsuits.2.1) fun x x' hx => ?_
      refine mirrors_bind (h.evaluate scope hchange hsuits.2.2) fun y y' hy => ?_
      rw [op.apply_resembles hx.resembles hy.resembles]
      exact mirrors_ofExcept (op.apply_plain x' y') hchange _
  | call callee args mark =>
      simp only [Expr.nodes, Variation.suits_cons, Variation.suits_append] at hsuits
      simp only [Expr.relabel, Run.evaluate, Expr.relabelAll_eq_map]
      refine mirrors_bind (h.evaluate scope hchange hsuits.2.1) fun value value' hvalue => ?_
      cases value with
      | function callable =>
          obtain ⟨callable', rfl, hcallable⟩ := hvalue.of_function
          refine mirrors_bind (h.evaluateAll scope hchange hsuits.2.2)
            fun values values' hvalues => ?_
          simp only [hvalues.length_eq, hcallable.arity_eq]
          split
          · exact h.call _ hcallable hvalues hchange
          · exact mirrors_fail _ hchange _
      | _ =>
          obtain rfl := hvalue.eq_of_kind (by simp [Value.kind])
          exact mirrors_fail _ hchange _
  | function decl mark =>
      simp only [Expr.nodes, Variation.suits_cons] at hsuits
      simp only [Expr.relabel, Run.evaluate, FnDecl.relabel_name hchange hsuits.2]
      exact mirrors_functionLiteral hchange hsuits.2 (hsuits.2.2 _ decl.mem_nodes)

theorem Mirrored.evaluateAll_step {exprs : List Expr} (hsuits : c.Suits (Expr.allNodes exprs)) :
    Mirrors c (List.Forall₂ (Value.Varied c.toVariation))
      (Run.evaluateAll (fuel + 1) scope (exprs.map (Expr.relabel change)))
      (Run.evaluateAll (c.slack + fuel + 1) scope exprs) := by
  cases exprs with
  | nil =>
      simp only [List.map_nil, Run.evaluateAll]
      exact mirrors_pure .nil
  | cons expr rest =>
      simp only [Expr.allNodes, Variation.suits_append] at hsuits
      simp only [List.map_cons, Run.evaluateAll]
      refine mirrors_bind (h.evaluate scope hchange hsuits.1) fun value value' hvalue => ?_
      refine mirrors_bind (h.evaluateAll scope hchange hsuits.2) fun values values' hvalues => ?_
      exact mirrors_pure (.cons hvalue hvalues)

omit scope in
theorem Mirrored.call_step {callable callable' : Callable} {args args' : List Value}
    (span : Span) (hcallable : callable.Varied c.toVariation callable')
    (hargs : List.Forall₂ (Value.Varied c.toVariation) args args') :
    Mirrors c (Value.Varied c.toVariation) (Run.call (fuel + 1) callable args (change.span span))
      (Run.call (c.slack + fuel + 1) callable' args' span) := by
  cases hcallable with
  | builtin builtin =>
      simp only [Run.call]
      exact mirrors_applyBuiltin builtin hargs hchange span
  | @closure identity name made decl scope hmade hsuits hname =>
      simp only [Run.call]
      refine mirrors_nested (mirrors_bind (mirrors_enter hsuits made identity hargs) ?_)
      rintro inner _ rfl
      rw [FnDecl.relabel_body]
      refine mirrors_bind (h.executeAll inner hmade hsuits.body .nothing) ?_
      rintro flow flow' hflow
      cases hflow with
      | normal => exact mirrors_pure .nothing
      | returned hvalue => exact mirrors_pure hvalue

theorem Mirrored.executeInside {stmts : List Stmt} (hsuits : c.Suits (Stmt.allNodes stmts)) :
    Mirrors c (Flow.Varied c.toVariation)
      (inside scope >>= fun inner =>
        Run.executeAll fuel inner .nothing (stmts.map (Stmt.relabel change)))
      (inside scope >>= fun inner => Run.executeAll (c.slack + fuel) inner .nothing stmts) := by
  refine mirrors_bind mirrors_inside ?_
  rintro inner _ rfl
  exact h.executeAll inner hchange hsuits .nothing

theorem Mirrored.execute_step {stmt : Stmt} (hsuits : c.Suits stmt.nodes) :
    Mirrors c (Flow.Varied c.toVariation) (Run.execute (fuel + 1) scope (stmt.relabel change))
      (Run.execute (c.slack + fuel + 1) scope stmt) := by
  cases stmt with
  | expression expr =>
      simp only [Stmt.nodes, Variation.suits_cons] at hsuits
      simp only [Stmt.relabel, Run.execute]
      exact mirrors_bind (h.evaluate scope hchange hsuits.2)
        fun _ _ hvalue => mirrors_pure (.normal hvalue)
  | binding name declared init mark =>
      cases init with
      | none =>
          simp only [Stmt.nodes, Variation.suits_cons, Node.plainNames,
            List.forall_mem_singleton] at hsuits
          simp only [Stmt.relabel, Expr.relabel?, Run.execute]
          refine mirrors_bind (mirrors_pure (@Value.Varied.nothing c.toVariation))
            fun value value' hvalue => ?_
          exact mirrors_bind (mirrors_define_fixed hsuits.1.1 hvalue)
            fun _ _ _ => mirrors_pure (.normal .nothing)
      | some init =>
          simp only [Stmt.nodes, Variation.suits_cons, Node.plainNames,
            List.forall_mem_singleton] at hsuits
          obtain ⟨⟨hname, -⟩, hinit⟩ := hsuits
          -- a function has the name of its binding, which is plain
          have hvalue := h.evaluate scope hchange hinit
          cases init
          case function decl mark =>
            simp only [Expr.nodes, Variation.suits_cons] at hinit
            have hliteral : Mirrors c (Value.Varied c.toVariation)
                (functionLiteral name (decl.relabel change) scope)
                (functionLiteral name decl scope) := by
              have hrenamed := @mirrors_functionLiteral c scope name decl change hchange hinit.2
                (c.known_of_fixed hname)
              rwa [hname] at hrenamed
            simp only [Stmt.relabel, Expr.relabel?, Expr.relabel, Run.execute]
            refine mirrors_bind hliteral fun value value' hvalue => ?_
            exact mirrors_bind (mirrors_define_fixed hname hvalue)
              fun _ _ _ => mirrors_pure (.normal .nothing)
          all_goals
            simp only [Stmt.relabel, Expr.relabel?, Expr.relabel, Run.execute] at hvalue ⊢
            refine mirrors_bind hvalue fun value value' hvalue => ?_
            exact mirrors_bind (mirrors_define_fixed hname hvalue)
              fun _ _ _ => mirrors_pure (.normal .nothing)
  | block block =>
      simp only [Stmt.nodes, Variation.suits_cons, Block.nodes_eq] at hsuits
      simp only [Stmt.relabel, Run.execute, Block.statements_relabel]
      exact h.executeInside hchange scope hsuits.2
  | conditional condition thenBlock otherwise span =>
      rw [Stmt.nodes_conditional] at hsuits
      simp only [Variation.suits_cons, Variation.suits_append] at hsuits
      obtain ⟨-, hcondition, hthen, hotherwise⟩ := hsuits
      -- `execute` has an equation for each kind of `else`
      cases otherwise with
      | none =>
          simp only [Stmt.relabel, Stmt.relabel?, Run.execute, Block.statements_relabel]
          refine mirrors_bind (h.evaluate scope hchange hcondition) fun truth truth' htruth => ?_
          rw [htruth.resembles.isTruthy_eq]
          split
          · exact h.executeInside hchange scope hthen
          · exact mirrors_pure (.normal .nothing)
      | some stmt =>
          simp only [Stmt.relabel, Stmt.relabel?, Run.execute, Block.statements_relabel]
          refine mirrors_bind (h.evaluate scope hchange hcondition) fun truth truth' htruth => ?_
          rw [htruth.resembles.isTruthy_eq]
          split
          · exact h.executeInside hchange scope hthen
          · exact h.execute scope hchange hotherwise
  | loop condition body span =>
      simp only [Stmt.nodes, Variation.suits_cons, Variation.suits_append] at hsuits
      simp only [Stmt.relabel, Run.execute]
      exact h.repeatWhile scope hchange hsuits.2.1 hsuits.2.2
  | function decl =>
      simp only [Stmt.nodes, Variation.suits_cons] at hsuits
      have hknown := hsuits.2.2 _ decl.mem_nodes
      simp only [Stmt.relabel, Run.execute, FnDecl.relabel_name hchange hsuits.2,
        FnDecl.relabel_anonymous]
      refine mirrors_bind (mirrors_closure hchange hsuits.2 hknown) fun value value' hvalue => ?_
      refine mirrors_bind (mirrors_define _ hvalue) fun _ _ _ => mirrors_pure (.normal ?_)
      split
      · exact hvalue
      · exact .nothing
  | ret value span =>
      cases value with
      | none =>
          simp only [Stmt.relabel, Expr.relabel?, Run.execute]
          exact mirrors_pure (.returned .nothing)
      | some value =>
          simp only [Stmt.nodes, Variation.suits_cons] at hsuits
          simp only [Stmt.relabel, Expr.relabel?, Run.execute]
          exact mirrors_bind (h.evaluate scope hchange hsuits.2)
            fun _ _ hvalue => mirrors_pure (.returned hvalue)

theorem Mirrored.executeAll_step {last last' : Value} {stmts : List Stmt}
    (hsuits : c.Suits (Stmt.allNodes stmts)) (hlast : last.Varied c.toVariation last') :
    Mirrors c (Flow.Varied c.toVariation)
      (Run.executeAll (fuel + 1) scope last (stmts.map (Stmt.relabel change)))
      (Run.executeAll (c.slack + fuel + 1) scope last' stmts) := by
  cases stmts with
  | nil =>
      simp only [List.map_nil, Run.executeAll]
      exact mirrors_pure (.normal hlast)
  | cons stmt rest =>
      simp only [Stmt.allNodes, Variation.suits_append] at hsuits
      simp only [List.map_cons, Run.executeAll]
      refine mirrors_bind (h.execute scope hchange hsuits.1) fun flow flow' hflow => ?_
      cases hflow with
      | normal hvalue => exact h.executeAll scope hchange hsuits.2 hvalue
      | returned hvalue => exact mirrors_pure (.returned hvalue)

theorem Mirrored.repeatWhile_step {condition : Expr} {body : Block}
    (hcondition : c.Suits condition.nodes) (hbody : c.Suits body.nodes) :
    Mirrors c (Flow.Varied c.toVariation)
      (Run.repeatWhile (fuel + 1) scope (condition.relabel change) (body.relabel change))
      (Run.repeatWhile (c.slack + fuel + 1) scope condition body) := by
  simp only [Run.repeatWhile, Block.statements_relabel]
  refine mirrors_bind (h.evaluate scope hchange hcondition) fun truth truth' htruth => ?_
  rw [htruth.resembles.isTruthy_eq]
  split
  · rw [← bind_assoc, ← bind_assoc]
    have hstatements := hbody
    rw [Block.nodes_eq] at hstatements
    refine mirrors_bind (h.executeInside hchange scope hstatements) fun _ _ hflow => ?_
    cases hflow with
    | normal => exact h.repeatWhile scope hchange hcondition hbody
    | returned hvalue => exact mirrors_pure (.returned hvalue)
  · exact mirrors_pure (.normal .nothing)

end Step

theorem mirrored (c : Comparison) (fuel : Nat) : Mirrored c fuel := by
  induction fuel with
  | zero =>
      constructor <;> intros <;> refine mirrors_outOfFuel ?_ fun hslack => ?_
      all_goals
        simp only [*, Nat.add_zero, Run.evaluate, Run.evaluateAll, Run.call, Run.execute,
          Run.executeAll, Run.repeatWhile]
  | succ fuel ih =>
      exact {
        evaluate := fun scope _ _ hchange hsuits => ih.evaluate_step hchange scope hsuits
        evaluateAll := fun scope _ _ hchange hsuits => ih.evaluateAll_step hchange scope hsuits
        call := fun span hcallable hargs hchange => ih.call_step hchange span hcallable hargs
        execute := fun scope _ _ hchange hsuits => ih.execute_step hchange scope hsuits
        executeAll := fun scope _ _ _ _ hchange hsuits hlast =>
          ih.executeAll_step hchange scope hsuits hlast
        repeatWhile := fun scope _ _ _ hchange hcondition hbody =>
          ih.repeatWhile_step hchange scope hcondition hbody }

end Run

end Scriptlet
