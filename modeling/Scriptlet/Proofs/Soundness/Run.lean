import Scriptlet.Proofs.Operators
import Scriptlet.Proofs.Running.Rules
import Scriptlet.Proofs.Soundness.Value

/-! Runs of what is typed come to values of the types in the slots. Where one fails, either a
number has no room, or the output, or a name is not found. -/

namespace Scriptlet

def Task.Typed (types : Types) (context : Context) : Task → Prop
  | .evaluate _ expr => (∃ ty, HasType context expr ty) ∧ Good types expr.nodes
  | .evaluateAll _ exprs =>
      (∃ params, HaveTypes context exprs params) ∧ Good types (Expr.allNodes exprs)
  | .call callable args _ =>
      ∃ params ty, callable.Has types params ty ∧
        List.Forall₂ (fun ty arg => Value.Has types arg ty) params args
  | .execute _ stmt => StmtTyped context stmt ∧ Good types stmt.nodes
  | .executeAll _ _ stmts => StmtsTyped context stmts ∧ Good types (Stmt.allNodes stmts)
  | .repeatWhile _ condition body =>
      (∃ ty, HasType context condition ty) ∧
        StmtsTyped context.inBlock body.statements ∧
        Good types condition.nodes ∧ Good types (Stmt.allNodes body.statements)

def Expr.Gives (types : Types) (expr : Expr) (value : Value) : Prop :=
  ∀ ty, expr.mark.ty = some ty → value.Has types ty

/-- What is returned has the type that the function promises, and whatever returns does so. -/
def Flow.Keeps (types : Types) (context : Context) (returns : Bool) : Flow → Prop
  | .normal _ => ¬returns
  | .returned value => ∀ declared ∈ context.result, value.Has types declared

theorem Flow.Keeps.weaken {types : Types} {context : Context} {returns returns' : Bool}
    {flow : Flow} (h : flow.Keeps types context returns) (hreturns : returns' → returns) :
    flow.Keeps types context returns' := by
  cases flow with
  | normal value => exact fun h' => h (hreturns h')
  | returned value => exact h

def Task.Keeps (types : Types) (context : Context) : (task : Task) → task.Answer → Prop
  | .evaluate _ expr, value => expr.Gives types value
  | .evaluateAll _ exprs, values => List.Forall₂ (Expr.Gives types) exprs values
  | .call callable _ _, value => Value.Has types value callable.resultTy
  | .execute _ stmt, flow => Flow.Keeps types context stmt.returns flow
  | .executeAll _ _ stmts, flow => Flow.Keeps types context (Stmt.lastReturns stmts) flow
  | .repeatWhile .., flow => Flow.Keeps types context false flow

/-- Faults that no types prevent, and those about names. -/
def RuntimeFault.IsLeft (fault : RuntimeFault) : Prop :=
  fault = .overflow ∨ fault = .divisionByZero ∨ fault = .outputFull ∨ fault.isAboutName

def typing (types : Types) : Contract Context where
  pre context task machine :=
    machine.scopes.Typed types ∧ context.Within types ∧ task.Typed types context
  post context task _ answer after := after.scopes.Typed types ∧ task.Keeps types context answer
  stop _ _ _ reason _ := ∀ error, reason = .fault error → error.fault.IsLeft

namespace typing

variable {types : Types} {context : Context} {scope : ScopeId} {fuel : Nat} {machine : Machine}
  {ty : Ty} {value : Value}

theorem on_the_way (ih : (typing types).At fuel) (context : Context) (task : Task)
    (hscopes : machine.scopes.Typed types) (within : context.Within types)
    (h : task.Typed types context) :
    Visits (typing types).Visited fuel task machine
      (fun answer after => after.scopes.Typed types ∧ task.Keeps types context answer)
      (fun reason _ => ∀ error, reason = .fault error → error.fault.IsLeft) :=
  ih.visits context ⟨hscopes, within, h⟩

theorem gives {expr : Expr} (slot : expr.mark.ty = some ty) (h : value.Has types ty) :
    expr.Gives types value := by
  intro other hother
  obtain rfl : ty = other := Option.some.inj (slot.symm.trans hother)
  exact h

theorem left {fault : RuntimeFault} (h : fault.IsLeft) (span : Span) :
    ∀ error, Stop.fault ⟨fault, span⟩ = .fault error → error.fault.IsLeft := by
  intro error heq
  obtain rfl := Stop.fault.inj heq
  exact h

theorem settles (expr : Expr) {result : Except RuntimeFault Value} {after : Machine}
    (slot : expr.mark.ty = some ty) (h : Comes types ty result) (span : Span)
    (hafter : after.scopes.Typed types) :
    Run.Settles result span after
      ((typing types).post context (.evaluate scope expr) machine)
      ((typing types).stop context (.evaluate scope expr) machine) := by
  cases result with
  | ok value => exact ⟨hafter, gives slot h⟩
  | error fault =>
      refine left ?_ span
      rcases h with rfl | rfl
      · exact .inl rfl
      · exact .inr (.inl rfl)

theorem forall₂_args {exprs : List Expr} {params : List Ty} {values : List Value}
    (typed : HaveTypes context exprs params) (h : List.Forall₂ (Expr.Gives types) exprs values) :
    List.Forall₂ (fun ty arg => Value.Has types arg ty) params values := by
  induction h generalizing params with
  | nil =>
      cases typed with
      | nil => exact .nil
  | cons hvalue _ ih =>
      cases typed with
      | cons harg fits hargs =>
          refine .cons ?_ (ih hargs)
          rcases fits with rfl | rfl
          · trivial
          · exact hvalue _ harg.slot

theorem compares {op : BinaryOp} {left right : Expr} {mark : Mark}
    (h : (Node.expr (.binary op left right mark)).Good types) (hleft : HasType context left ty)
    (hop : op = .equal ∨ op = .notEqual) : ty ≠ .nothing := by
  have hcompares := h.compares
  rintro rfl
  rcases hop with rfl | rfl <;> simp [Node.comparesValues, hleft.slot] at hcompares

theorem literal_name {visible : NameScope} {decl : FnDecl} {mark : Mark}
    (h : (Node.expr (.function decl mark)).Good types) (typed : FnTyped context visible decl)
    (hnamed : !decl.anonymous) : types decl.name = some decl.ty := by
  have hbindings : (Node.expr (.function decl mark)).bindings = [(decl.name, decl.ty)] := by
    simp [Node.bindings, typed.slot, (by simpa using hnamed : decl.anonymous = false)]
  exact h.named (decl.name, decl.ty) (hbindings ▸ List.mem_singleton_self _)

theorem ends_literal {decl : FnDecl} {mark : Mark} (hscopes : machine.scopes.Typed types)
    (within : context.Within types) (good : Good types (Expr.function decl mark).nodes)
    (typed : FnTyped context .inside decl) (name : String) :
    (Run.functionLiteral name decl scope).Ends machine
      (fun value after => after.scopes.Typed types ∧ value.Has types decl.ty)
      (fun _ _ => False) := by
  obtain ⟨hnode, hnodes⟩ := good_cons.mp good
  have hname := literal_name hnode typed
  have hvalue := typed.has_closure within hnodes (fun h => hname (h.resolve_left nofun))
    machine.nextIdentity name
  refine Run.ends_functionLiteral.mpr ?_
  split
  · exact ⟨hscopes, hvalue scope⟩
  · rename_i hanonymous
    have hnamed := hname (by simpa using hanonymous)
    exact ⟨hscopes.enclose hnamed (hvalue _) scope, hvalue _⟩

theorem step_assign (ih : (typing types).At fuel) {name : String} {value : Expr} {mark : Mark}
    (hscopes : machine.scopes.Typed types) (within : context.Within types)
    (found : context.types name = some ty) (hvalue : HasType context value ty)
    (slot : mark.ty = some ty) (good : Good types value.nodes) :
    (typing types).Step fuel context (.evaluate scope (.assign name value mark)) machine := by
  refine carries_assign (fun _ => ?_) fun _ => left (.inr (.inr (.inr rfl))) _
  refine (on_the_way ih context (.evaluate scope value) hscopes within
    ⟨⟨_, hvalue⟩, good⟩).mono (fun answer after h => ?_) fun _ _ h => h
  cases hresolve : after.scopes.resolve scope name with
  | some nearest =>
      have hanswer := h.2 _ hvalue.slot
      exact ⟨h.1.define (within _ _ found) hanswer nearest, gives slot hanswer⟩
  | none => exact left (.inr (.inr (.inr rfl))) _

theorem step_application (ih : (typing types).At fuel) {callee : Expr} {args : List Expr}
    {params : List Ty} {mark : Mark} (hscopes : machine.scopes.Typed types)
    (within : context.Within types) (hcallee : HasType context callee (.function params ty))
    (hargs : HaveTypes context args params) (slot : mark.ty = some ty)
    (goodCallee : Good types callee.nodes) (goodArgs : Good types (Expr.allNodes args)) :
    (typing types).Step fuel context (.evaluate scope (.call callee args mark)) machine := by
  refine carries_call ((on_the_way ih context (.evaluate scope callee) hscopes within
    ⟨⟨_, hcallee⟩, goodCallee⟩).mono (fun value middle h => ?_) fun _ _ h => h)
  obtain ⟨callable, rfl, hcallable⟩ := (h.2 _ hcallee.slot).function
  refine (on_the_way ih context (.evaluateAll scope args) h.1 within
    ⟨⟨_, hargs⟩, goodArgs⟩).mono (fun values after hvalues => ?_) fun _ _ h => h
  have harguments := forall₂_args hargs hvalues.2
  have hlength : values.length = callable.arity :=
    harguments.length_eq.symm.trans hcallable.length_params
  simp only [hlength, if_true]
  refine (on_the_way ih context (.call callable values mark.span) hvalues.1 within
    ⟨_, _, hcallable, harguments⟩).mono (fun answer last hanswer => ?_) fun _ _ h => h
  refine ⟨hanswer.1, gives slot ?_⟩
  rw [hcallable.eq_resultTy]
  exact hanswer.2

theorem step_evaluate (ih : (typing types).At fuel) {expr : Expr}
    (hscopes : machine.scopes.Typed types) (within : context.Within types)
    (h : (Task.evaluate scope expr).Typed types context) :
    (typing types).Step fuel context (.evaluate scope expr) machine := by
  obtain ⟨⟨ty, typed⟩, good⟩ := h
  cases typed with
  | literal slot => exact carries_literal ⟨hscopes, gives slot (Value.has_ofLiteral _)⟩
  | read found slot =>
      refine carries_variable (fun value hget => ⟨hscopes, gives slot ?_⟩) fun _ => ?_
      · exact hscopes.get? (within _ _ found) hget
      · exact left (.inr (.inr (.inr rfl))) _
  | assign found hvalue slot =>
      exact step_assign ih hscopes within found hvalue slot (good_cons.mp good).2
  | group hinner slot =>
      have hnodes := good_cons.mp good
      refine carries_group ((on_the_way ih context (.evaluate scope _) hscopes within
        ⟨⟨_, hinner⟩, hnodes.2⟩).mono (fun value after h => ?_) fun _ _ h => h)
      exact ⟨h.1, gives slot (h.2 _ hinner.slot)⟩
  | unary hoperand makes slot =>
      have hnodes := good_cons.mp good
      refine carries_unary ((on_the_way ih context (.evaluate scope _) hscopes within
        ⟨⟨_, hoperand⟩, hnodes.2⟩).mono (fun value after h => ?_) fun _ _ h => h)
      have hvalue := h.2 _ hoperand.slot
      exact settles (.unary _ _ _) slot (UnaryOp.apply_comes makes hvalue) _ h.1
  | binary hleft hright makes slot =>
      obtain ⟨hnode, hnodes⟩ := good_cons.mp good
      obtain ⟨hleftNodes, hrightNodes⟩ := good_append.mp hnodes
      refine carries_binary ((on_the_way ih context (.evaluate scope _) hscopes within
        ⟨⟨_, hleft⟩, hleftNodes⟩).mono (fun x middle hx => ?_) fun _ _ h => h)
      refine (on_the_way ih context (.evaluate scope _) hx.1 within
        ⟨⟨_, hright⟩, hrightNodes⟩).mono (fun y after hy => ?_) fun _ _ h => h
      have hcomes := BinaryOp.apply_comes makes (hx.2 _ hleft.slot) (hy.2 _ hright.slot)
        (compares hnode hleft)
      exact settles (.binary _ _ _ _) slot hcomes _ hy.1
  | call hcallee hargs slot =>
      have hnodes := good_append.mp (good_cons.mp good).2
      exact step_application ih hscopes within hcallee hargs slot hnodes.1 hnodes.2
  | function hdecl slot =>
      exact carries_function ((ends_literal hscopes within good hdecl _).mono
        (fun value after h => ⟨h.1, gives slot h.2⟩) fun _ _ => False.elim)

theorem step_evaluateAll (ih : (typing types).At fuel) {exprs : List Expr}
    (hscopes : machine.scopes.Typed types) (within : context.Within types)
    (h : (Task.evaluateAll scope exprs).Typed types context) :
    (typing types).Step fuel context (.evaluateAll scope exprs) machine := by
  obtain ⟨⟨params, typed⟩, good⟩ := h
  cases typed with
  | nil => exact carries_evaluateAll_nil ⟨hscopes, .nil⟩
  | cons harg fits hargs =>
      rename_i arg rest param ty params
      obtain ⟨hargNodes, hrestNodes⟩ := good_append.mp good
      refine carries_evaluateAll_cons ((on_the_way ih context (.evaluate scope arg) hscopes within
        ⟨⟨_, harg⟩, hargNodes⟩).mono (fun value middle hvalue => ?_) fun _ _ h => h)
      refine (on_the_way ih context (.evaluateAll scope rest) hvalue.1 within
        ⟨⟨_, hargs⟩, hrestNodes⟩).mono (fun values after hvalues => ?_) fun _ _ h => h
      exact ⟨hvalues.1, .cons hvalue.2 hvalues.2⟩

theorem has_of_isAnswer {builtin : Builtin} (h : value.isAnswer builtin) :
    value.Has types (Callable.builtin builtin).resultTy := by
  cases builtin with
  | clock =>
      cases value with
      | int n => trivial
      | _ => simp [Value.isAnswer, Value.kind] at h
  | print | println => trivial

theorem keeps_promise {decl : FnDecl} (h : (Node.fn decl).Good types)
    (hnormal : ¬Stmt.lastReturns decl.body) : decl.resultTy = .nothing := by
  have hpromise := h.promise
  simp only [Node.keepsPromise, decide_eq_true_eq] at hpromise
  exact hpromise.resolve_right hnormal

/-- The body of a function runs in the context in which it was checked. -/
theorem step_call (ih : (typing types).At fuel) {callable : Callable} {args : List Value}
    {span : Span} (hscopes : machine.scopes.Typed types)
    (h : (Task.call callable args span).Typed types context) :
    (typing types).Step fuel context (.call callable args span) machine := by
  obtain ⟨params, ty, hcallable, hargs⟩ := h
  cases callable with
  | builtin builtin =>
      refine carries_builtin (fun value after hafter hanswer => ?_) fun after _ => ?_
      · exact ⟨hafter ▸ hscopes, has_of_isAnswer hanswer⟩
      · exact left (.inr (.inr (.inl rfl))) _
  | closure closure =>
      obtain ⟨made, visible, typed, hty, within, good⟩ := hcallable
      have hnode := good _ closure.decl.mem_nodes
      rw [FnDecl.nodes_eq, good_cons] at good
      cases typed with
      | intro written slot hbody =>
          have hnames : ∀ param ∈ closure.decl.params, types param.name = some param.ty :=
            fun param hparam => hnode.named _ (List.mem_map_of_mem hparam)
          rw [← (Ty.function.inj hty).1] at hargs
          refine carries_closure ((on_the_way ih _
            (.executeAll machine.scopes.size .nothing closure.decl.body)
            (hscopes.enter hnames hargs closure.scope) within ⟨hbody, good.2⟩).mono
            (fun flow after h => ?_) fun _ _ h => h)
          cases flow with
          | returned value => exact ⟨h.1, h.2 _ rfl⟩
          | normal value =>
              -- The body came to its end, which is allowed only where nothing is promised.
              refine ⟨h.1, ?_⟩
              show Value.Has types .nothing closure.decl.resultTy
              rw [keeps_promise hnode h.2]
              trivial

theorem in_block (ih : (typing types).At fuel) (hscopes : machine.scopes.Typed types)
    (within : context.Within types) {stmts : List Stmt}
    (typed : StmtsTyped context.inBlock stmts) (good : Good types (Stmt.allNodes stmts)) :
    Visits (typing types).Visited fuel (.executeAll machine.scopes.size .nothing stmts)
      { machine with scopes := (machine.scopes.addInside scope).1 }
      (fun flow after => after.scopes.Typed types ∧
        Flow.Keeps types context (Stmt.lastReturns stmts) flow)
      (fun reason _ => ∀ error, reason = .fault error → error.fault.IsLeft) :=
  on_the_way ih context.inBlock (.executeAll machine.scopes.size .nothing stmts)
    (hscopes.addInside scope) within.inBlock ⟨typed, good⟩

theorem step_binding (ih : (typing types).At fuel) {name : String} {declared : Option TypeExpr}
    {init : Expr} {mark : Mark} (hscopes : machine.scopes.Typed types)
    (within : context.Within types) (hinit : HasType context init ty) (slot : mark.ty = some ty)
    (hnode : (Node.stmt (.binding name declared (some init) mark)).Good types)
    (good : Good types init.nodes) :
    (typing types).Step fuel context
      (.execute scope (.binding name declared (some init) mark)) machine := by
  have hname : types name = some ty := by
    simpa [slot] using hnode.named (name, mark.ty.getD .nothing) List.mem_cons_self
  refine carries_binding (fun decl _ heq => ?_) fun _ => ?_
  · subst heq
    cases hinit with
    | function hdecl _ =>
        exact (ends_literal hscopes within good hdecl name).mono
          (fun value after h => ⟨h.1.define hname h.2 scope, nofun⟩) fun _ _ => False.elim
  · refine (on_the_way ih context (.evaluate scope init) hscopes within
      ⟨⟨_, hinit⟩, good⟩).mono (fun value after h => ?_) fun _ _ h => h
    exact ⟨h.1.define hname (h.2 _ hinit.slot) scope, nofun⟩

theorem step_alternative (ih : (typing types).At fuel) {condition : Expr} {stmts : List Stmt}
    {otherwise : Stmt} {span blockSpan : Span} (hscopes : machine.scopes.Typed types)
    (within : context.Within types) (hcondition : HasType context condition ty)
    (hthenBlock : StmtsTyped context.inBlock stmts)
    (hotherwise : StmtTyped context otherwise) (goodCondition : Good types condition.nodes)
    (goodThen : Good types (Stmt.allNodes stmts)) (goodOtherwise : Good types otherwise.nodes) :
    (typing types).Step fuel context
      (.execute scope (.conditional condition ⟨stmts, blockSpan⟩ (some otherwise) span))
      machine := by
  have hreturns : (Stmt.conditional condition ⟨stmts, blockSpan⟩ (some otherwise) span).returns →
      Stmt.lastReturns stmts ∧ otherwise.returns := by simp [Stmt.returns, Block.returns]
  refine carries_conditional ((on_the_way ih context (.evaluate scope condition) hscopes within
    ⟨⟨_, hcondition⟩, goodCondition⟩).mono (fun truth middle h => ?_) fun _ _ h => h)
  split
  · refine (in_block ih h.1 within hthenBlock goodThen).mono (fun flow after hflow => ?_)
      fun _ _ h => h
    exact ⟨hflow.1, hflow.2.weaken fun h => (hreturns h).1⟩
  · refine (on_the_way ih context (.execute scope otherwise) h.1 within
      ⟨hotherwise, goodOtherwise⟩).mono (fun flow after hflow => ?_) fun _ _ h => h
    exact ⟨hflow.1, Flow.Keeps.weaken hflow.2 fun h => (hreturns h).2⟩

theorem step_execute (ih : (typing types).At fuel) {stmt : Stmt}
    (hscopes : machine.scopes.Typed types) (within : context.Within types)
    (h : (Task.execute scope stmt).Typed types context) :
    (typing types).Step fuel context (.execute scope stmt) machine := by
  obtain ⟨typed, good⟩ := h
  have hnode := good _ stmt.mem_nodes
  cases typed with
  | expression hexpr =>
      have hnodes := good_cons.mp good
      refine carries_expression ((on_the_way ih context (.evaluate scope _) hscopes within
        ⟨⟨_, hexpr⟩, hnodes.2⟩).mono (fun value after h => ?_) fun _ _ h => h)
      exact ⟨h.1, nofun⟩
  | uninitialized slot =>
      have hinitialized := hnode.initialized
      simp [Node.isInitialized] at hinitialized
  | binding hinit agrees slot =>
      exact step_binding ih hscopes within hinit slot hnode (good_cons.mp good).2
  | block hblock =>
      rename_i block
      obtain ⟨stmts, span⟩ := block
      have hnodes := good_cons.mp good
      exact carries_block (in_block ih hscopes within hblock hnodes.2)
  | conditional hcondition hthenBlock =>
      rename_i condition ty thenBlock span
      obtain ⟨stmts, blockSpan⟩ := thenBlock
      obtain ⟨hconditionNodes, hthenNodes⟩ := good_append.mp (good_cons.mp good).2
      refine carries_conditional ((on_the_way ih context (.evaluate scope condition) hscopes within
        ⟨⟨_, hcondition⟩, hconditionNodes⟩).mono (fun truth middle h => ?_) fun _ _ h => h)
      split
      · refine (in_block ih h.1 within hthenBlock hthenNodes).mono (fun flow after hflow => ?_)
          fun _ _ h => h
        exact ⟨hflow.1, hflow.2.weaken nofun⟩
      · exact ⟨h.1, nofun⟩
  | alternative hcondition hthenBlock branch hotherwise =>
      rename_i condition ty thenBlock otherwise span
      obtain ⟨stmts, blockSpan⟩ := thenBlock
      obtain ⟨hconditionNodes, hnodes⟩ := good_append.mp (good_cons.mp good).2
      obtain ⟨hthenNodes, hotherwiseNodes⟩ := good_append.mp hnodes
      exact step_alternative ih hscopes within hcondition hthenBlock hotherwise hconditionNodes
        hthenNodes hotherwiseNodes
  | loop hcondition hbody =>
      rename_i condition ty body span
      obtain ⟨stmts, blockSpan⟩ := body
      obtain ⟨_, hnodes⟩ := good_cons.mp good
      have hboth := good_append.mp hnodes
      exact carries_loop (on_the_way ih context (.repeatWhile scope condition ⟨stmts, blockSpan⟩)
        hscopes within ⟨⟨_, hcondition⟩, hbody, hboth⟩)
  | function hdecl =>
      rename_i decl
      have hnodes := good_cons.mp good
      have hname : types decl.name = some decl.ty := by
        simpa [hdecl.slot] using
          hnode.named (decl.name, decl.mark.ty.getD .nothing) List.mem_cons_self
      have hvalue := hdecl.has_closure within hnodes.2 (fun _ => hname) machine.nextIdentity
        decl.name scope
      exact carries_declaration fun value heq => ⟨hscopes.define hname (heq ▸ hvalue) scope, nofun⟩
  | finish result =>
      refine carries_finish ⟨hscopes, fun declared h => ?_⟩
      rw [result declared h]
      trivial
  | ret hvalue result =>
      rename_i value ty span
      have hnodes := good_cons.mp good
      refine carries_ret ((on_the_way ih context (.evaluate scope value) hscopes within
        ⟨⟨_, hvalue⟩, hnodes.2⟩).mono (fun answer after h => ⟨h.1, fun declared hdeclared => ?_⟩)
        fun _ _ h => h)
      rcases result declared hdeclared with rfl | rfl
      · trivial
      · exact h.2 _ hvalue.slot

theorem step_executeAll (ih : (typing types).At fuel) {last : Value} {stmts : List Stmt}
    (hscopes : machine.scopes.Typed types) (within : context.Within types)
    (h : (Task.executeAll scope last stmts).Typed types context) :
    (typing types).Step fuel context (.executeAll scope last stmts) machine := by
  obtain ⟨typed, good⟩ := h
  cases typed with
  | nil => exact carries_executeAll_nil ⟨hscopes, nofun⟩
  | cons hstmt hrest =>
      rename_i stmt rest
      obtain ⟨hstmtNodes, hrestNodes⟩ := good_append.mp good
      refine carries_executeAll_cons ((on_the_way ih context (.execute scope stmt) hscopes within
        ⟨hstmt, hstmtNodes⟩).mono (fun flow middle h => ?_) fun _ _ h => h)
      cases flow with
      | returned value => exact ⟨h.1, h.2⟩
      | normal value =>
          have hbehind := on_the_way ih (context.after stmt) (.executeAll scope value rest) h.1
            (within.after hstmtNodes) ⟨hrest, hrestNodes⟩
          refine hbehind.mono (fun flow after hflow => ⟨hflow.1, ?_⟩) fun _ _ h => h
          cases flow with
          | returned answer =>
              show ∀ declared ∈ context.result, Value.Has types answer declared
              rw [← Context.result_after stmt]
              exact hflow.2
          | normal answer =>
              -- Whether the list returns is up to its last statement.
              cases rest with
              | nil => exact h.2
              | cons next rest => exact hflow.2

theorem step_repeatWhile (ih : (typing types).At fuel) {condition : Expr} {body : Block}
    (hscopes : machine.scopes.Typed types) (within : context.Within types)
    (h : (Task.repeatWhile scope condition body).Typed types context) :
    (typing types).Step fuel context (.repeatWhile scope condition body) machine := by
  obtain ⟨hcondition, hbody, hconditionNodes, hbodyNodes⟩ := h
  refine carries_repeatWhile ((on_the_way ih context (.evaluate scope condition) hscopes within
    ⟨hcondition, hconditionNodes⟩).mono (fun truth middle h => ?_) fun _ _ h => h)
  split
  · refine (in_block ih h.1 within hbody hbodyNodes).mono (fun flow after hflow => ?_)
      fun _ _ h => h
    cases flow with
    | returned value => exact ⟨hflow.1, hflow.2⟩
    | normal value =>
        exact on_the_way ih context (.repeatWhile scope condition body) hflow.1 within
          ⟨hcondition, hbody, hconditionNodes, hbodyNodes⟩
  · exact ⟨h.1, nofun⟩

theorem kept : (typing types).Kept where
  exhausted _ _ _ _ := nofun
  step fuel ih context task machine hpre := by
    obtain ⟨hscopes, within, htyped⟩ := hpre
    cases task with
    | evaluate scope expr => exact step_evaluate ih hscopes within htyped
    | evaluateAll scope exprs => exact step_evaluateAll ih hscopes within htyped
    | call callable args span => exact step_call ih hscopes htyped
    | execute scope stmt => exact step_execute ih hscopes within htyped
    | executeAll scope last stmts => exact step_executeAll ih hscopes within htyped
    | repeatWhile scope condition body => exact step_repeatWhile ih hscopes within htyped

end typing

end Scriptlet
