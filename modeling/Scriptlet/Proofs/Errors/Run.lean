import Scriptlet.Proofs.Running.Rules
import Scriptlet.Proofs.Operators
import Scriptlet.Proofs.Tree

/-! What a run blames when it fails. Every function value is made of a function of the program
that is run, so whatever is evaluated is a part of the program, also in the body of a function
that is called from elsewhere. -/

namespace Scriptlet

/-- Whether an expression can fail itself, and not only in its parts. -/
def Expr.mayFail : Expr → Bool
  | .variable .. | .assign .. | .unary .. | .binary .. | .call .. => true
  | .literal .. | .group .. | .function .. => false

/-- The span belongs to an expression among the nodes that can fail itself. -/
def Blames (nodes : List Node) (span : Span) : Prop :=
  ∃ expr, .expr expr ∈ nodes ∧ expr.mayFail ∧ expr.span = span

/-- A function value is made of a function among the nodes. -/
def Value.From (nodes : List Node) : Value → Prop
  | .function (.closure closure) => closure.decl.nodes ⊆ nodes
  | _ => True

theorem Value.from_of_kind {nodes : List Node} {value : Value} (h : value.kind ≠ .function) :
    value.From nodes := by
  cases value with
  | function => exact absurd rfl h
  | _ => trivial

namespace Task

def Within (nodes : List Node) : Task → Prop
  | .evaluate _ expr => expr.nodes ⊆ nodes
  | .evaluateAll _ exprs => Expr.allNodes exprs ⊆ nodes
  | .call callable args span =>
      (Value.function callable).From nodes ∧ (∀ arg ∈ args, arg.From nodes) ∧ Blames nodes span
  | .execute _ stmt => stmt.nodes ⊆ nodes
  | .executeAll _ last stmts => last.From nodes ∧ Stmt.allNodes stmts ⊆ nodes
  | .repeatWhile _ condition body => condition.nodes ⊆ nodes ∧ body.nodes ⊆ nodes

def Gives (nodes : List Node) : (task : Task) → task.Answer → Prop
  | .evaluate .., answer | .call .., answer => Value.From nodes answer
  | .evaluateAll .., answer => ∀ value ∈ (answer : List Value), value.From nodes
  | .execute .., answer | .executeAll .., answer | .repeatWhile .., answer =>
      (Flow.value answer).From nodes

end Task

def blame (nodes : List Node) : Contract Unit where
  pre _ task machine := task.Within nodes ∧ machine.scopes.Hold (Value.From nodes)
  post _ task _ answer after := task.Gives nodes answer ∧ after.scopes.Hold (Value.From nodes)
  stop _ _ _ reason _ := ∀ e, reason = .fault e → Blames nodes e.span

namespace blame

variable {nodes : List Node} {fuel : Nat} {machine : Machine}

theorem task (ih : (blame nodes).At fuel) (task : Task) (hwithin : task.Within nodes)
    (hscopes : machine.scopes.Hold (Value.From nodes)) :
    Visits (blame nodes).Visited fuel task machine
      (fun answer after => task.Gives nodes answer ∧ after.scopes.Hold (Value.From nodes))
      (fun reason _ => ∀ e, reason = .fault e → Blames nodes e.span) :=
  ih.visits () ⟨hwithin, hscopes⟩

theorem statements (ih : (blame nodes).At fuel) (scope : ScopeId) {stmts : List Stmt}
    (hmem : Stmt.allNodes stmts ⊆ nodes) (hscopes : machine.scopes.Hold (Value.From nodes)) :
    Visits (blame nodes).Visited fuel (.executeAll scope .nothing stmts) machine
      (fun flow after => (Flow.value flow).From nodes ∧ after.scopes.Hold (Value.From nodes))
      (fun reason _ => ∀ e, reason = .fault e → Blames nodes e.span) :=
  task ih (.executeAll scope .nothing stmts) ⟨trivial, hmem⟩ hscopes

theorem stopped {expr : Expr} (hmem : expr.nodes ⊆ nodes) (hfails : expr.mayFail)
    (fault : RuntimeFault) :
    ∀ e, Stop.fault ⟨fault, expr.span⟩ = .fault e → Blames nodes e.span := by
  rintro e ⟨⟩
  exact ⟨expr, hmem expr.mem_nodes, hfails, rfl⟩

theorem settled {expr : Expr} (hmem : expr.nodes ⊆ nodes) (hfails : expr.mayFail)
    {result : Except RuntimeFault Value} (hplain : Plain result) {after : Machine}
    (hscopes : after.scopes.Hold (Value.From nodes)) :
    Run.Settles result expr.span after
      (fun answer after => answer.From nodes ∧ after.scopes.Hold (Value.From nodes))
      (fun reason _ => ∀ e, reason = .fault e → Blames nodes e.span) := by
  cases result with
  | ok value => exact ⟨Value.from_of_kind hplain, hscopes⟩
  | error fault => exact stopped hmem hfails fault

theorem literal (name : String) {decl : FnDecl} (hmem : decl.nodes ⊆ nodes) (scope : ScopeId)
    (hscopes : machine.scopes.Hold (Value.From nodes)) {ok : Value → Machine → Prop}
    (hok : ∀ value after, value.From nodes → after.scopes.Hold (Value.From nodes) →
      ok value after) {stop : Stop → Machine → Prop} :
    (Run.functionLiteral name decl scope).Ends machine ok stop := by
  refine Run.ends_functionLiteral.mpr ?_
  split
  · exact hok _ _ hmem hscopes
  · have hvalue : (Value.function (.closure
        ⟨machine.nextIdentity, name, decl, machine.scopes.size⟩)).From nodes := hmem
    exact hok _ _ hvalue (hscopes.enclose hvalue _ _)

theorem step_evaluate (ih : (blame nodes).At fuel) (scope : ScopeId) {expr : Expr}
    (hmem : expr.nodes ⊆ nodes) (hscopes : machine.scopes.Hold (Value.From nodes)) :
    (blame nodes).Step fuel () (.evaluate scope expr) machine := by
  cases expr with
  | literal value mark =>
      refine carries_literal ⟨?_, hscopes⟩
      cases value <;> trivial
  | «variable» name mark =>
      exact carries_variable (fun value hget => ⟨hscopes.get? hget, hscopes⟩) fun _ =>
        stopped hmem rfl _
  | assign name value mark =>
      have hvalue : value.nodes ⊆ nodes := fun _ h => hmem (List.mem_cons_of_mem _ h)
      refine carries_assign (fun _ => ?_) fun _ => stopped hmem rfl _
      refine (task ih (.evaluate scope value) hvalue hscopes).mono (fun answer after h => ?_)
        fun _ _ h => h
      cases hresolve : after.scopes.resolve scope name with
      | some nearest => exact ⟨h.1, h.2.define h.1 _ _⟩
      | none => exact stopped hmem rfl _
  | group inner mark =>
      exact carries_group (task ih (.evaluate scope inner)
        (fun _ h => hmem (List.mem_cons_of_mem _ h)) hscopes)
  | unary op operand mark =>
      have hoperand : operand.nodes ⊆ nodes := fun _ h => hmem (List.mem_cons_of_mem _ h)
      exact carries_unary ((task ih (.evaluate scope operand) hoperand hscopes).mono
        (fun value after h => settled hmem rfl (op.apply_plain value) h.2) fun _ _ h => h)
  | binary op left right mark =>
      have hparts : ∀ node ∈ left.nodes ++ right.nodes, node ∈ nodes :=
        fun _ h => hmem (List.mem_cons_of_mem _ h)
      obtain ⟨hleft, hright⟩ := List.forall_mem_append.mp hparts
      refine carries_binary ((task ih (.evaluate scope left) hleft hscopes).mono
        (fun x middle h => ?_) fun _ _ h => h)
      exact (task ih (.evaluate scope right) hright h.2).mono
        (fun y after h => settled hmem rfl (op.apply_plain x y) h.2) fun _ _ h => h
  | call callee args mark =>
      have hparts : ∀ node ∈ callee.nodes ++ Expr.allNodes args, node ∈ nodes :=
        fun _ h => hmem (List.mem_cons_of_mem _ h)
      obtain ⟨hcallee, hargs⟩ := List.forall_mem_append.mp hparts
      refine carries_call ((task ih (.evaluate scope callee) hcallee hscopes).mono
        (fun value middle h => ?_) fun _ _ h => h)
      cases value with
      | function callable =>
          refine (task ih (.evaluateAll scope args) hargs h.2).mono (fun values after hafter => ?_)
            fun _ _ h => h
          split
          · exact task ih (.call callable values mark.span)
              ⟨h.1, hafter.1, _, hmem (Expr.mem_nodes _), rfl, rfl⟩ hafter.2
          · exact stopped hmem rfl _
      | _ => exact stopped hmem rfl _
  | function decl mark =>
      exact carries_function (literal _ (fun _ h => hmem (List.mem_cons_of_mem _ h)) scope hscopes
        fun _ _ hvalue hafter => ⟨hvalue, hafter⟩)

theorem step_evaluateAll (ih : (blame nodes).At fuel) (scope : ScopeId) {exprs : List Expr}
    (hmem : Expr.allNodes exprs ⊆ nodes) (hscopes : machine.scopes.Hold (Value.From nodes)) :
    (blame nodes).Step fuel () (.evaluateAll scope exprs) machine := by
  cases exprs with
  | nil => exact carries_evaluateAll_nil ⟨nofun, hscopes⟩
  | cons expr rest =>
      obtain ⟨hfirst, hrest⟩ := List.forall_mem_append.mp hmem
      refine carries_evaluateAll_cons ((task ih (.evaluate scope expr) hfirst hscopes).mono
        (fun value middle h => ?_) fun _ _ h => h)
      exact (task ih (.evaluateAll scope rest) hrest h.2).mono
        (fun values after hafter => ⟨List.forall_mem_cons.mpr ⟨h.1, hafter.1⟩, hafter.2⟩)
        fun _ _ h => h

theorem step_call (ih : (blame nodes).At fuel) {callable : Callable} {args : List Value}
    {span : Span} (hwithin : (Task.call callable args span).Within nodes)
    (hscopes : machine.scopes.Hold (Value.From nodes)) :
    (blame nodes).Step fuel () (.call callable args span) machine := by
  obtain ⟨hcallable, hargs, hspan⟩ := hwithin
  cases callable with
  | builtin builtin =>
      refine carries_builtin (fun value after hafter hanswer => ⟨?_, hafter ▸ hscopes⟩) ?_
      · refine Value.from_of_kind fun hkind => ?_
        cases builtin <;> simp [Value.isAnswer, hkind] at hanswer
      · rintro after _ e ⟨⟩
        exact hspan
  | closure closure =>
      have hbody : Stmt.allNodes closure.decl.body ⊆ nodes := by
        intro node hnode
        refine hcallable ?_
        rw [FnDecl.nodes_eq]
        exact List.mem_cons_of_mem _ hnode
      refine carries_closure ((statements ih _ hbody (hscopes.enter hargs _ _)).mono
        (fun flow after h => ?_) fun _ _ h => h)
      cases flow with
      | returned value => exact h
      | normal value => exact ⟨trivial, h.2⟩

theorem step_execute (ih : (blame nodes).At fuel) (scope : ScopeId) {stmt : Stmt}
    (hmem : stmt.nodes ⊆ nodes) (hscopes : machine.scopes.Hold (Value.From nodes)) :
    (blame nodes).Step fuel () (.execute scope stmt) machine := by
  cases stmt with
  | expression expr =>
      exact carries_expression (task ih (.evaluate scope expr)
        (fun _ h => hmem (List.mem_cons_of_mem _ h)) hscopes)
  | binding name declared init mark =>
      cases init with
      | none =>
          have hnothing : Value.nothing.From nodes := trivial
          exact carries_uninitialized ⟨hnothing, hscopes.define hnothing _ _⟩
      | some init =>
          have hinit : init.nodes ⊆ nodes := fun _ h => hmem (List.mem_cons_of_mem _ h)
          refine carries_binding (fun decl slot heq => ?_) fun _ => ?_
          · subst heq
            exact literal _ (fun _ h => hinit (List.mem_cons_of_mem _ h)) scope hscopes
              fun _ _ hvalue hafter => ⟨trivial, hafter.define hvalue _ _⟩
          · exact (task ih (.evaluate scope init) hinit hscopes).mono
              (fun _ _ h => ⟨trivial, h.2.define h.1 _ _⟩) fun _ _ h => h
  | block block =>
      have hblock : block.nodes ⊆ nodes := fun _ h => hmem (List.mem_cons_of_mem _ h)
      rw [Block.nodes_eq] at hblock
      exact carries_block (statements ih _ hblock (hscopes.addInside scope))
  | conditional condition thenBlock otherwise span =>
      have hparts : ∀ node ∈ (Stmt.conditional condition thenBlock otherwise span).nodes,
        node ∈ nodes := fun _ h => hmem h
      rw [Stmt.nodes_conditional] at hparts
      simp only [List.forall_mem_cons, List.forall_mem_append] at hparts
      obtain ⟨_, hcondition, hthen, helse⟩ := hparts
      refine carries_conditional ((task ih (.evaluate scope condition) hcondition hscopes).mono
        (fun truth middle h => ?_) fun _ _ h => h)
      split
      · exact statements ih _ hthen (h.2.addInside scope)
      · cases otherwise with
        | some stmt => exact task ih (.execute scope stmt) helse h.2
        | none => exact ⟨trivial, h.2⟩
  | loop condition body span =>
      have hparts : ∀ node ∈ condition.nodes ++ body.nodes, node ∈ nodes :=
        fun _ h => hmem (List.mem_cons_of_mem _ h)
      exact carries_loop (task ih (.repeatWhile scope condition body)
        (List.forall_mem_append.mp hparts) hscopes)
  | function decl =>
      have hdecl : decl.nodes ⊆ nodes := fun _ h => hmem (List.mem_cons_of_mem _ h)
      refine carries_declaration fun value hvalue => ?_
      have hfrom : value.From nodes := hvalue ▸ hdecl
      refine ⟨?_, hscopes.define hfrom _ _⟩
      show (if decl.anonymous then value else Value.nothing).From nodes
      split
      · exact hfrom
      · trivial
  | ret value span =>
      cases value with
      | none => exact carries_finish ⟨trivial, hscopes⟩
      | some value =>
          exact carries_ret (task ih (.evaluate scope value)
            (fun _ h => hmem (List.mem_cons_of_mem _ h)) hscopes)

theorem step_executeAll (ih : (blame nodes).At fuel) (scope : ScopeId) {last : Value}
    {stmts : List Stmt} (hlast : last.From nodes) (hmem : Stmt.allNodes stmts ⊆ nodes)
    (hscopes : machine.scopes.Hold (Value.From nodes)) :
    (blame nodes).Step fuel () (.executeAll scope last stmts) machine := by
  cases stmts with
  | nil => exact carries_executeAll_nil ⟨hlast, hscopes⟩
  | cons stmt rest =>
      obtain ⟨hstmt, hrest⟩ := List.forall_mem_append.mp hmem
      refine carries_executeAll_cons ((task ih (.execute scope stmt) hstmt hscopes).mono
        (fun flow middle h => ?_) fun _ _ h => h)
      cases flow with
      | normal value => exact task ih (.executeAll scope value rest) ⟨h.1, hrest⟩ h.2
      | returned value => exact h

theorem step_repeatWhile (ih : (blame nodes).At fuel) (scope : ScopeId) {condition : Expr}
    {body : Block} (hcondition : condition.nodes ⊆ nodes) (hbody : body.nodes ⊆ nodes)
    (hscopes : machine.scopes.Hold (Value.From nodes)) :
    (blame nodes).Step fuel () (.repeatWhile scope condition body) machine := by
  refine carries_repeatWhile ((task ih (.evaluate scope condition) hcondition hscopes).mono
    (fun truth middle h => ?_) fun _ _ h => h)
  split
  · refine (statements ih _ (Block.nodes_eq body ▸ hbody) (h.2.addInside scope)).mono
      (fun flow after h => ?_) fun _ _ h => h
    cases flow with
    | normal value => exact task ih (.repeatWhile scope condition body) ⟨hcondition, hbody⟩ h.2
    | returned value => exact h
  · exact ⟨trivial, h.2⟩

theorem kept (nodes : List Node) : (blame nodes).Kept where
  exhausted _ _ _ _ := nofun
  step fuel ih _ task machine hpre := by
    obtain ⟨hwithin, hscopes⟩ := hpre
    cases task with
    | evaluate scope expr => exact step_evaluate ih scope hwithin hscopes
    | evaluateAll scope exprs => exact step_evaluateAll ih scope hwithin hscopes
    | call callable args span => exact step_call ih hwithin hscopes
    | execute scope stmt => exact step_execute ih scope hwithin hscopes
    | executeAll scope last stmts => exact step_executeAll ih scope hwithin.1 hwithin.2 hscopes
    | repeatWhile scope condition body =>
        exact step_repeatWhile ih scope hwithin.1 hwithin.2 hscopes

end blame

/-- A run that fails blames an expression of the program, as long as all functions that are there
before it are functions of the program, too. -/
theorem Program.run_blames {program : Program} {machine : Machine}
    (h : machine.scopes.Hold (Value.From program.nodes)) {fuel : Nat} {e : RuntimeError}
    (hrun : (program.run fuel machine).result = .error (.fault e)) :
    Blames program.nodes e.span := by
  have hends := (blame.kept program.nodes).at fuel ()
    (.executeAll Machine.globals .nothing program.statements) machine
    ⟨⟨trivial, fun _ hmem => hmem⟩, h⟩
  unfold run at hrun
  split at hrun
  · cases hrun
  · rename_i error after heq
    obtain rfl : error = e := Stop.fault.inj (Except.error.inj hrun)
    exact hends.of_error heq error rfl
  · cases hrun

end Scriptlet
