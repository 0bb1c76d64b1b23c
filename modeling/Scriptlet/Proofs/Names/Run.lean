import Scriptlet.Proofs.Names.Kept
import Scriptlet.Proofs.Operators

/-! Runs of what is typed find every name that the checker found, unless the name is one of
those that the top may miss, and every function value that they make is kept. -/

namespace Scriptlet

def Task.Named (missed : String → Prop) (uses : Use → Prop) (site : Site) (scopes : Scopes) :
    Task → Prop
  | .evaluate scope expr =>
      site.Holds missed scopes scope ∧ (∃ ty, HasType site.place.context expr ty) ∧
        ∀ use ∈ expr.uses site.place, uses use
  | .evaluateAll scope exprs =>
      site.Holds missed scopes scope ∧ (∃ params, HaveTypes site.place.context exprs params) ∧
        ∀ use ∈ Expr.allUses site.place exprs, uses use
  | .call callable args _ =>
      callable.Kept missed uses scopes ∧ (∀ arg ∈ args, arg.Kept missed uses scopes) ∧
        args.length = callable.arity
  | .execute scope stmt =>
      site.Holds missed scopes scope ∧ StmtTyped site.place.context stmt ∧
        ∀ use ∈ stmt.uses site.place, uses use
  | .executeAll scope _ stmts =>
      site.Holds missed scopes scope ∧ StmtsTyped site.place.context stmts ∧
        ∀ use ∈ Stmt.allUses site.place stmts, uses use
  | .repeatWhile scope condition body =>
      site.Holds missed scopes scope ∧ (∃ ty, HasType site.place.context condition ty) ∧
        StmtsTyped site.place.context.inBlock body.statements ∧
        (∀ use ∈ condition.uses site.place, uses use) ∧
        ∀ use ∈ body.uses site.place.inBlock, uses use

def Task.Answered (missed : String → Prop) (uses : Use → Prop) (scopes : Scopes) :
    (task : Task) → task.Answer → Prop
  | .evaluate .., value | .call .., value => Value.Kept missed uses scopes value
  | .evaluateAll .., values => ∀ value ∈ values, Value.Kept missed uses scopes value
  | .execute .., flow | .executeAll .., flow | .repeatWhile .., flow =>
      ∀ value, flow = Flow.returned value → value.Kept missed uses scopes

/-- A run that does not find a name looked for one that may be missed and is not bound. -/
def Stop.Excused (missed : String → Prop) (scopes : Scopes) (reason : Stop) : Prop :=
  ∀ error name, reason = .fault error →
    (error.fault = .undefined name ∨ error.fault = .undeclaredTarget name) →
      missed name ∧ ¬scopes.binds Machine.globals name

def names (missed : String → Prop) (uses : Use → Prop) : Contract Site where
  pre site task machine :=
    machine.scopes.Kept missed uses ∧ task.Named missed uses site machine.scopes
  post _ task _ answer after :=
    after.scopes.Kept missed uses ∧ task.Answered missed uses after.scopes answer
  stop _ _ _ reason after :=
    after.scopes.Kept missed uses ∧ reason.Excused missed after.scopes

section Names

variable {missed : String → Prop} {uses : Use → Prop} {scopes : Scopes} {site : Site}
  {scope : ScopeId}

theorem Covers.globals_mem {instances : List (List ScopeId)} {levels : List (Bindings Ty)}
    (h : Covers missed scopes instances levels) : Machine.globals ∈ instances.flatten := by
  induction h with
  | top => simp
  | inner _ _ ih => exact List.mem_append_right _ ih

/-- A name that the checker finds is found, or it may be missed and is not bound at the top. -/
theorem Site.Holds.resolves (h : site.Holds missed scopes scope) {name : String} {ty : Ty}
    (found : site.place.checker.lookup name = some ty) (hnone : scopes.resolve scope name = none) :
    missed name ∧ ¬scopes.binds Machine.globals name := by
  rw [Scopes.resolve_eq_find?, h.path, List.find?_eq_none] at hnone
  have htop := hnone _ h.covers.globals_mem
  obtain ⟨depth, _, hmissed | ⟨ids, hids, id, hid, hbinds⟩⟩ := h.instance_of_lookup found
  · exact ⟨hmissed, htop⟩
  · have hmem : ids ∈ site.instances := List.mem_of_getElem? hids
    exact absurd hbinds (hnone id (List.mem_flatten.mpr ⟨ids, hmem, hid⟩))

theorem excused_of_fault {fault : RuntimeFault} (h : fault.isAboutName = false) (span : Span) :
    (Stop.fault ⟨fault, span⟩).Excused missed scopes := by
  intro error name heq hname
  obtain rfl := Stop.fault.inj heq
  rcases hname with rfl | rfl <;> simp [RuntimeFault.isAboutName] at h

theorem excused_of_missing {name : String} {fault : RuntimeFault}
    (hfault : fault = .undefined name ∨ fault = .undeclaredTarget name)
    (h : missed name ∧ ¬scopes.binds Machine.globals name) (span : Span) :
    (Stop.fault ⟨fault, span⟩).Excused missed scopes := by
  intro error other heq hother
  obtain rfl := Stop.fault.inj heq
  obtain rfl : name = other := by
    rcases hfault with rfl | rfl <;> simpa using hother
  exact h

theorem Value.kept_of_kind {value : Value} (h : value.kind ≠ .function) :
    value.Kept missed uses scopes := by
  cases value with
  | function callable => exact absurd rfl h
  | _ => trivial

theorem kept_of_get? (h : scopes.Kept missed uses) {name : String} {value : Value}
    (hget : scopes.get? scope name = some value) : value.Kept missed uses scopes := by
  obtain ⟨nearest, _, hown⟩ := Option.bind_eq_some_iff.mp hget
  exact h nearest name value hown

end Names

namespace names

variable {missed : String → Prop} {uses : Use → Prop} {site : Site} {scope : ScopeId}
  {fuel : Nat} {machine : Machine}

theorem on_the_way (ih : (names missed uses).At fuel) (site : Site) (task : Task)
    (hkept : machine.scopes.Kept missed uses) (h : task.Named missed uses site machine.scopes) :
    Visits (names missed uses).Visited fuel task machine
      (fun answer after => after.scopes.Kept missed uses ∧
        task.Answered missed uses after.scopes answer ∧
        machine.scopes.Extends task.opens after.scopes ∧
        task.Declared machine.scopes after.scopes answer)
      (fun reason after => after.scopes.Kept missed uses ∧ reason.Excused missed after.scopes) := by
  refine ⟨⟨site, hkept, h⟩, ?_⟩
  refine ((ih site task machine ⟨hkept, h⟩).and (Task.frame fuel task machine)).mono
    (fun _ _ hpost => ?_) fun _ _ hstop => hstop.1
  exact ⟨hpost.1.1, hpost.1.2, hpost.2⟩

theorem settles_plain {result : Except RuntimeFault Value} (h : Plain result) (span : Span)
    {after : Machine} (hkept : after.scopes.Kept missed uses) :
    Run.Settles result span after
      (fun value last => last.scopes.Kept missed uses ∧ value.Kept missed uses last.scopes)
      (fun reason last => last.scopes.Kept missed uses ∧ reason.Excused missed last.scopes) := by
  cases result with
  | ok value => exact ⟨hkept, Value.kept_of_kind h⟩
  | error fault => exact ⟨hkept, excused_of_fault h span⟩

theorem step_assign (ih : (names missed uses).At fuel) {name : String} {value : Expr} {ty : Ty}
    {mark : Mark} (hkept : machine.scopes.Kept missed uses)
    (hholds : site.Holds missed machine.scopes scope)
    (found : site.place.checker.lookup name = some ty)
    (hvalue : HasType site.place.context value ty)
    (huses : ∀ use ∈ value.uses site.place, uses use) :
    (names missed uses).Step fuel site (.evaluate scope (.assign name value mark)) machine := by
  refine carries_assign (fun hbound => ?_) fun hunbound => ?_
  · refine (on_the_way ih site (.evaluate scope value) hkept ⟨hholds, ⟨_, hvalue⟩, huses⟩).mono
      (fun answer after h => ?_) fun _ _ h => h
    obtain ⟨hafter, hanswer, hextends, _⟩ := h
    cases hresolve : after.scopes.resolve scope name with
    | some nearest =>
        have hdefine := hafter.define_kept hanswer nearest name
        exact ⟨hdefine, hanswer.extend (Scopes.Extends.define _ _ _ _)⟩
    | none =>
        have hmissing := (hholds.quiet hextends).resolves found hresolve
        exact ⟨hafter, excused_of_missing (.inr rfl) hmissing _⟩
  · have hnone : machine.scopes.resolve scope name = none := by
      simpa [Scopes.contains] using hunbound
    exact ⟨hkept, excused_of_missing (.inr rfl) (hholds.resolves found hnone) _⟩

theorem step_application (ih : (names missed uses).At fuel) {callee : Expr} {args : List Expr}
    {ty : Ty} {params : List Ty} {mark : Mark} (hkept : machine.scopes.Kept missed uses)
    (hholds : site.Holds missed machine.scopes scope)
    (hcallee : HasType site.place.context callee ty)
    (hargs : HaveTypes site.place.context args params)
    (hcalleeUses : ∀ use ∈ callee.uses site.place, uses use)
    (hargsUses : ∀ use ∈ Expr.allUses site.place args, uses use) :
    (names missed uses).Step fuel site (.evaluate scope (.call callee args mark)) machine := by
  refine carries_call ((on_the_way ih site (.evaluate scope callee) hkept
    ⟨hholds, ⟨_, hcallee⟩, hcalleeUses⟩).mono (fun value middle h => ?_) fun _ _ h => h)
  obtain ⟨hmiddle, hvalue, hextends, _⟩ := h
  cases value with
  | function callable =>
      refine (on_the_way ih site (.evaluateAll scope args) hmiddle
        ⟨hholds.quiet hextends, ⟨_, hargs⟩, hargsUses⟩).mono (fun values after h => ?_)
        fun _ _ h => h
      obtain ⟨hafter, hvalues, hextends, _⟩ := h
      split
      · rename_i hlength
        have hcallable : (Value.function callable).Kept missed uses after.scopes :=
          Value.Kept.extend hvalue hextends
        exact (on_the_way ih site (.call callable values _) hafter
          ⟨hcallable, hvalues, hlength⟩).mono (fun _ _ h => ⟨h.1, h.2.1⟩) fun _ _ h => h
      · exact ⟨hafter, excused_of_fault rfl _⟩
  | _ => exact ⟨hmiddle, excused_of_fault rfl _⟩

theorem step_evaluate (ih : (names missed uses).At fuel) {expr : Expr}
    (hkept : machine.scopes.Kept missed uses)
    (h : (Task.evaluate scope expr).Named missed uses site machine.scopes) :
    (names missed uses).Step fuel site (.evaluate scope expr) machine := by
  obtain ⟨hholds, ⟨ty, typed⟩, huses⟩ := h
  cases typed with
  | literal slot =>
      rename_i value mark
      refine carries_literal ⟨hkept, Value.kept_of_kind ?_⟩
      cases value <;> simp [Value.ofLiteral, Value.kind]
  | read found slot =>
      refine carries_variable (fun value hget => ⟨hkept, kept_of_get? hkept hget⟩) fun hget => ?_
      have hnone := Scopes.get?_eq_none.mp hget
      exact ⟨hkept, excused_of_missing (.inl rfl) (hholds.resolves found hnone) _⟩
  | assign found hvalue slot =>
      have hvalueUses := fun use hmem => huses use (List.mem_cons_of_mem _ hmem)
      exact step_assign ih hkept hholds found hvalue hvalueUses
  | group hinner slot =>
      exact carries_group ((on_the_way ih site (.evaluate scope _) hkept
        ⟨hholds, ⟨_, hinner⟩, huses⟩).mono (fun _ _ h => ⟨h.1, h.2.1⟩) fun _ _ h => h)
  | unary hoperand result slot =>
      refine carries_unary ((on_the_way ih site (.evaluate scope _) hkept
        ⟨hholds, ⟨_, hoperand⟩, huses⟩).mono (fun _ _ h => ?_) fun _ _ h => h)
      exact settles_plain (UnaryOp.apply_plain _ _) _ h.1
  | binary hleft hright result slot =>
      have hboth := List.forall_mem_append.mp huses
      refine carries_binary ((on_the_way ih site (.evaluate scope _) hkept
        ⟨hholds, ⟨_, hleft⟩, hboth.1⟩).mono (fun x middle h => ?_) fun _ _ h => h)
      obtain ⟨hmiddle, _, hextends, _⟩ := h
      refine (on_the_way ih site (.evaluate scope _) hmiddle
        ⟨hholds.quiet hextends, ⟨_, hright⟩, hboth.2⟩).mono (fun y after h => ?_) fun _ _ h => h
      exact settles_plain (BinaryOp.apply_plain _ _ _) _ h.1
  | call hcallee hargs slot =>
      have hboth := List.forall_mem_append.mp huses
      exact step_application ih hkept hholds hcallee hargs hboth.1 hboth.2
  | function hdecl slot =>
      rename_i decl mark
      refine carries_function (Run.ends_functionLiteral.mpr ?_)
      split
      · rename_i hanonymous
        exact ⟨hkept, hholds.anonymous hdecl huses hanonymous _ _⟩
      · rename_i hanonymous
        have hvalue := hholds.enclosed hdecl huses hanonymous machine.nextIdentity decl.name
          (.function (.closure ⟨machine.nextIdentity, decl.name, decl, machine.scopes.size⟩))
        exact ⟨Scopes.Kept.enclose hkept hvalue, hvalue⟩

theorem step_evaluateAll (ih : (names missed uses).At fuel) {exprs : List Expr}
    (hkept : machine.scopes.Kept missed uses)
    (h : (Task.evaluateAll scope exprs).Named missed uses site machine.scopes) :
    (names missed uses).Step fuel site (.evaluateAll scope exprs) machine := by
  obtain ⟨hholds, ⟨params, typed⟩, huses⟩ := h
  cases typed with
  | nil => exact carries_evaluateAll_nil ⟨hkept, by simp [Task.Answered]⟩
  | cons harg fits hargs =>
      rename_i arg rest param ty params
      have hboth := List.forall_mem_append.mp huses
      refine carries_evaluateAll_cons ((on_the_way ih site (.evaluate scope arg) hkept
        ⟨hholds, ⟨_, harg⟩, hboth.1⟩).mono (fun value middle h => ?_) fun _ _ h => h)
      obtain ⟨hmiddle, hvalue, hextends, _⟩ := h
      refine (on_the_way ih site (.evaluateAll scope rest) hmiddle
        ⟨hholds.quiet hextends, ⟨_, hargs⟩, hboth.2⟩).mono (fun values after h => ?_) fun _ _ h => h
      obtain ⟨hafter, hvalues, hextends, _⟩ := h
      exact ⟨hafter, List.forall_mem_cons.mpr ⟨Value.Kept.extend hvalue hextends, hvalues⟩⟩

theorem step_call (ih : (names missed uses).At fuel) {callable : Callable} {args : List Value}
    {span : Span} (hkept : machine.scopes.Kept missed uses)
    (h : (Task.call callable args span).Named missed uses site machine.scopes) :
    (names missed uses).Step fuel site (.call callable args span) machine := by
  obtain ⟨hcallable, hargs, hlength⟩ := h
  cases callable with
  | builtin builtin =>
      refine carries_builtin (fun value after hscopes hanswer => ?_) fun after hscopes => ?_
      · refine ⟨hscopes ▸ hkept, Value.kept_of_kind ?_⟩
        cases builtin <;> cases value <;> simp_all [Value.isAnswer, Value.kind]
      · exact ⟨hscopes ▸ hkept, excused_of_fault rfl _⟩
  | closure closure =>
      obtain ⟨made, visible, hmade⟩ := hcallable
      cases hmade.typed with
      | intro written slot hbody =>
          have huses := hmade.mem_uses
          rw [FnDecl.uses_eq slot] at huses
          rw [← Place.context_inBody] at hbody
          -- The caller's site plays no part from here on.
          refine carries_closure ((on_the_way ih
            (made.inBody visible closure machine.scopes.size)
            (.executeAll machine.scopes.size .nothing closure.decl.body)
            (Scopes.Kept.enter hkept closure.scope closure.decl.params hargs)
            ⟨hmade.enter hlength, hbody, huses⟩).mono (fun flow after h => ?_) fun _ _ h => h)
          cases flow with
          | returned value => exact ⟨h.1, h.2.1 value rfl⟩
          | normal value => exact ⟨h.1, trivial⟩

theorem not_returned {scopes : Scopes} {value answer : Value}
    (h : Flow.normal answer = .returned value) : value.Kept missed uses scopes :=
  nomatch h

theorem in_block (ih : (names missed uses).At fuel) (hkept : machine.scopes.Kept missed uses)
    (hholds : site.Holds missed machine.scopes scope) {block : Block}
    (typed : StmtsTyped site.place.context.inBlock block.statements)
    (huses : ∀ use ∈ block.uses site.place.inBlock, uses use) :
    Visits (names missed uses).Visited fuel
      (.executeAll machine.scopes.size .nothing block.statements)
      { machine with scopes := (machine.scopes.addInside scope).1 }
      (fun flow after => after.scopes.Kept missed uses ∧
        (∀ value, flow = .returned value → value.Kept missed uses after.scopes) ∧
        machine.scopes.Quiet after.scopes)
      (fun reason after => after.scopes.Kept missed uses ∧ reason.Excused missed after.scopes) := by
  obtain ⟨stmts, span⟩ := block
  rw [← Place.context_inBlock] at typed
  have hnamed : (Task.executeAll machine.scopes.size .nothing stmts).Named missed uses
      (site.inBlock machine.scopes.size) (machine.scopes.addInside scope).1 :=
    ⟨hholds.block, typed, huses⟩
  refine (on_the_way ih _ _ (Scopes.Kept.addInside hkept scope) hnamed).mono
    (fun flow after h => ⟨h.1, h.2.1, ?_⟩) fun _ _ h => h
  exact h.2.2.1.of_inner fun _ _ hname => hname.1

theorem step_binding (ih : (names missed uses).At fuel) {name : String}
    {declared : Option TypeExpr} {init : Expr} {ty : Ty} {mark : Mark}
    (hkept : machine.scopes.Kept missed uses) (hholds : site.Holds missed machine.scopes scope)
    (hinit : HasType site.place.context init ty) (huses : ∀ use ∈ init.uses site.place, uses use) :
    (names missed uses).Step fuel site
      (.execute scope (.binding name declared (some init) mark)) machine := by
  refine carries_binding (fun decl slot heq => ?_) fun _ => ?_
  · subst heq
    cases hinit with
    | function hdecl _ =>
        refine Run.ends_functionLiteral.mpr ?_
        split
        · rename_i hanonymous
          have hvalue := hholds.anonymous hdecl huses hanonymous machine.nextIdentity name
          exact ⟨Scopes.Kept.define_kept hkept hvalue _ _, fun _ => not_returned⟩
        · rename_i hanonymous
          have hvalue := hholds.enclosed hdecl huses hanonymous machine.nextIdentity name
            (.function (.closure ⟨machine.nextIdentity, name, decl, machine.scopes.size⟩))
          exact ⟨Scopes.Kept.define_kept (Scopes.Kept.enclose hkept hvalue) hvalue _ _,
            fun _ => not_returned⟩
  · exact (on_the_way ih site (.evaluate scope init) hkept ⟨hholds, ⟨_, hinit⟩, huses⟩).mono
      (fun value after h => ⟨h.1.define_kept h.2.1 _ _, fun _ => not_returned⟩) fun _ _ h => h

theorem step_execute (ih : (names missed uses).At fuel) {stmt : Stmt}
    (hkept : machine.scopes.Kept missed uses)
    (h : (Task.execute scope stmt).Named missed uses site machine.scopes) :
    (names missed uses).Step fuel site (.execute scope stmt) machine := by
  obtain ⟨hholds, typed, huses⟩ := h
  cases typed with
  | expression hexpr =>
      exact carries_expression ((on_the_way ih site (.evaluate scope _) hkept
        ⟨hholds, ⟨_, hexpr⟩, huses⟩).mono (fun _ _ h => ⟨h.1, fun _ => not_returned⟩)
        fun _ _ h => h)
  | uninitialized slot =>
      have hnothing : Value.nothing.Kept missed uses machine.scopes := trivial
      exact carries_uninitialized
        ⟨Scopes.Kept.define_kept hkept hnothing _ _, fun _ => not_returned⟩
  | binding hinit agrees slot => exact step_binding ih hkept hholds hinit huses
  | block hblock =>
      exact carries_block ((in_block ih hkept hholds hblock huses).mono
        (fun _ _ h => ⟨h.1, h.2.1⟩) fun _ _ h => h)
  | conditional hcondition hthenBlock =>
      have hboth := List.forall_mem_append.mp huses
      refine carries_conditional ((on_the_way ih site (.evaluate scope _) hkept
        ⟨hholds, ⟨_, hcondition⟩, hboth.1⟩).mono (fun truth middle h => ?_) fun _ _ h => h)
      obtain ⟨hmiddle, _, hextends, _⟩ := h
      split
      · exact (in_block ih hmiddle (hholds.quiet hextends) hthenBlock hboth.2).mono
          (fun _ _ h => ⟨h.1, h.2.1⟩) fun _ _ h => h
      · exact ⟨hmiddle, fun _ => not_returned⟩
  | alternative hcondition hthenBlock branch hotherwise =>
      have hboth := List.forall_mem_append.mp huses
      have hblocks := List.forall_mem_append.mp hboth.2
      refine carries_conditional ((on_the_way ih site (.evaluate scope _) hkept
        ⟨hholds, ⟨_, hcondition⟩, hboth.1⟩).mono (fun truth middle h => ?_) fun _ _ h => h)
      obtain ⟨hmiddle, _, hextends, _⟩ := h
      split
      · exact (in_block ih hmiddle (hholds.quiet hextends) hthenBlock hblocks.1).mono
          (fun _ _ h => ⟨h.1, h.2.1⟩) fun _ _ h => h
      · exact (on_the_way ih site (.execute scope _) hmiddle
          ⟨hholds.quiet hextends, hotherwise, hblocks.2⟩).mono (fun _ _ h => ⟨h.1, h.2.1⟩)
          fun _ _ h => h
  | loop hcondition hbody =>
      have hboth := List.forall_mem_append.mp huses
      exact carries_loop ((on_the_way ih site (.repeatWhile scope _ _) hkept
        ⟨hholds, ⟨_, hcondition⟩, hbody, hboth.1, hboth.2⟩).mono (fun _ _ h => ⟨h.1, h.2.1⟩)
        fun _ _ h => h)
  | function hdecl =>
      refine carries_declaration fun value hvalue => ?_
      have hmade := hholds.declared hdecl huses machine.nextIdentity value
      refine ⟨Scopes.Kept.define hkept (hvalue ▸ hmade), fun answer heq => ?_⟩
      exact not_returned heq
  | finish result => exact carries_finish ⟨hkept, fun _ heq => Flow.returned.inj heq ▸ trivial⟩
  | ret hvalue result =>
      exact carries_ret ((on_the_way ih site (.evaluate scope _) hkept
        ⟨hholds, ⟨_, hvalue⟩, huses⟩).mono
        (fun _ _ h => ⟨h.1, fun _ heq => Flow.returned.inj heq ▸ h.2.1⟩) fun _ _ h => h)

theorem step_executeAll (ih : (names missed uses).At fuel) {last : Value} {stmts : List Stmt}
    (hkept : machine.scopes.Kept missed uses)
    (h : (Task.executeAll scope last stmts).Named missed uses site machine.scopes) :
    (names missed uses).Step fuel site (.executeAll scope last stmts) machine := by
  obtain ⟨hholds, typed, huses⟩ := h
  cases typed with
  | nil => exact carries_executeAll_nil ⟨hkept, fun _ => not_returned⟩
  | cons hstmt hrest =>
      rename_i stmt rest
      have hboth := List.forall_mem_append.mp huses
      refine carries_executeAll_cons ((on_the_way ih site (.execute scope stmt) hkept
        ⟨hholds, hstmt, hboth.1⟩).mono (fun flow middle h => ?_) fun _ _ h => h)
      obtain ⟨hmiddle, hreturned, hextends, hdeclared⟩ := h
      cases flow with
      | returned value => exact ⟨hmiddle, hreturned⟩
      | normal value =>
          have hbehind := hholds.after hstmt hextends (hdeclared hholds.lt_size)
          rw [← Place.context_after] at hrest
          exact (on_the_way ih (site.after stmt) (.executeAll scope value rest) hmiddle
            ⟨hbehind, hrest, hboth.2⟩).mono (fun _ _ h => ⟨h.1, h.2.1⟩) fun _ _ h => h

theorem step_repeatWhile (ih : (names missed uses).At fuel) {condition : Expr} {body : Block}
    (hkept : machine.scopes.Kept missed uses)
    (h : (Task.repeatWhile scope condition body).Named missed uses site machine.scopes) :
    (names missed uses).Step fuel site (.repeatWhile scope condition body) machine := by
  obtain ⟨hholds, hcondition, hbody, huses, hbodyUses⟩ := h
  refine carries_repeatWhile ((on_the_way ih site (.evaluate scope condition) hkept
    ⟨hholds, hcondition, huses⟩).mono (fun truth middle h => ?_) fun _ _ h => h)
  obtain ⟨hmiddle, _, hextends, _⟩ := h
  have hturn := hholds.quiet hextends
  split
  · refine (in_block ih hmiddle hturn hbody hbodyUses).mono (fun flow after h => ?_) fun _ _ h => h
    obtain ⟨hafter, hreturned, hquiet⟩ := h
    cases flow with
    | returned value => exact ⟨hafter, hreturned⟩
    | normal value =>
        exact (on_the_way ih site (.repeatWhile scope condition body) hafter
          ⟨hturn.quiet hquiet, hcondition, hbody, huses, hbodyUses⟩).mono
          (fun _ _ h => ⟨h.1, h.2.1⟩) fun _ _ h => h
  · exact ⟨hmiddle, fun _ => not_returned⟩

theorem kept : (names missed uses).Kept where
  exhausted _ _ _ hpre := ⟨hpre.1, nofun⟩
  step fuel ih site task machine hpre := by
    obtain ⟨hkept, hnamed⟩ := hpre
    cases task with
    | evaluate scope expr => exact step_evaluate ih hkept hnamed
    | evaluateAll scope exprs => exact step_evaluateAll ih hkept hnamed
    | call callable args span => exact step_call ih hkept hnamed
    | execute scope stmt => exact step_execute ih hkept hnamed
    | executeAll scope last stmts => exact step_executeAll ih hkept hnamed
    | repeatWhile scope condition body => exact step_repeatWhile ih hkept hnamed

end names

end Scriptlet
