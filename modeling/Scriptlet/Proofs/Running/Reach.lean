import Scriptlet.Proofs.Operators
import Scriptlet.Proofs.Running.Frame
import Scriptlet.Proofs.Scopes.Reach

/-! A run stays within its realm: it reads and changes only scopes that it could reach when it
began and those that it makes, and whatever it comes to leads nowhere else. -/

namespace Scriptlet

namespace Task

/-- The scopes that a task has to do with from the beginning: the one in use, and those of the
functions that it is given. -/
def atHand : Task → List ScopeId
  | .evaluate scope _ | .evaluateAll scope _ | .execute scope _ | .repeatWhile scope _ _ => [scope]
  | .call callable args _ => (Value.function callable :: args).filterMap Value.scope?
  | .executeAll scope last _ => scope :: last.scope?.toList

def answers : (task : Task) → task.Answer → List Value
  | .evaluate .., value | .call .., value => [value]
  | .evaluateAll .., values => values
  | .execute .., flow | .executeAll .., flow | .repeatWhile .., flow => [Flow.value flow]

end Task

def AllHeld (realm : Realm) (scopes : Scopes) (values : List Value) : Prop :=
  ∀ value ∈ values, ∀ inner ∈ value.scope?, realm.Has scopes.size inner

def reach (realm : Realm) (start : Scopes) : Contract Unit where
  pre _ task machine :=
    Scopes.Leads realm start machine.scopes ∧ ∀ id ∈ task.atHand, realm.Has machine.scopes.size id
  post _ task _ answer after :=
    Scopes.Leads realm start after.scopes ∧ AllHeld realm after.scopes (task.answers answer)
  stop _ _ _ _ after := Scopes.Leads realm start after.scopes

section Held

variable {realm : Realm} {scopes later : Scopes} {value : Value} {values : List Value}

@[simp] theorem allHeld_nil : AllHeld realm scopes [] := by simp [AllHeld]

@[simp] theorem allHeld_cons : AllHeld realm scopes (value :: values) ↔
    (∀ inner ∈ value.scope?, realm.Has scopes.size inner) ∧ AllHeld realm scopes values := by
  simp [AllHeld]

theorem allHeld_one (h : ∀ inner ∈ value.scope?, realm.Has scopes.size inner) :
    AllHeld realm scopes [value] := by simpa using h

theorem AllHeld.mono (h : AllHeld realm scopes values) (hle : scopes.size ≤ later.size) :
    AllHeld realm later values :=
  fun value hvalue inner hinner => (h value hvalue inner hinner).mono hle

theorem allHeld_of_kind (h : value.kind ≠ .function) : AllHeld realm scopes [value] :=
  allHeld_one (by simp [Value.scope?_of_kind h])

end Held

namespace reach

open Scopes

variable {realm : Realm} {start : Scopes} {fuel : Nat} {machine : Machine} {scope : ScopeId}

theorem on_the_way (ih : (reach realm start).At fuel) (task : Task)
    (h : Leads realm start machine.scopes)
    (hatHand : ∀ id ∈ task.atHand, realm.Has machine.scopes.size id) :
    Visits (reach realm start).Visited fuel task machine
      (fun answer after => Leads realm start after.scopes ∧
        AllHeld realm after.scopes (task.answers answer) ∧
        machine.scopes.size ≤ after.scopes.size)
      (fun _ after => Leads realm start after.scopes) := by
  have hvisits := ih.visits () ⟨h, hatHand⟩
  exact ⟨hvisits.1, (hvisits.2.and (Task.frame fuel task machine)).mono
    (fun _ _ hpost => ⟨hpost.1.1, hpost.1.2, hpost.2.1.size_le⟩) fun _ _ hstop => hstop.1⟩

theorem in_block (ih : (reach realm start).At fuel) (h : Leads realm start machine.scopes)
    (hscope : realm.Has machine.scopes.size scope) (stmts : List Stmt) :
    Visits (reach realm start).Visited fuel (.executeAll machine.scopes.size .nothing stmts)
      { machine with scopes := (machine.scopes.addInside scope).1 }
      (fun flow after => Leads realm start after.scopes ∧
        AllHeld realm after.scopes [flow.value] ∧ machine.scopes.size ≤ after.scopes.size)
      (fun _ after => Leads realm start after.scopes) := by
  refine (on_the_way ih _ (h.addInside hscope) ?_).mono (fun flow after hpost => ?_)
    fun _ _ hstop => hstop
  · simpa [Task.atHand, Value.scope?] using h.has_new scope
  · refine ⟨hpost.1, hpost.2.1, Nat.le_trans ?_ hpost.2.2⟩
    simp

theorem ends_literal {ok : Value → Machine → Prop} {stop : Stop → Machine → Prop} {name : String}
    {decl : FnDecl} (h : Leads realm start machine.scopes)
    (hscope : realm.Has machine.scopes.size scope)
    (hok : ∀ value after, Leads realm start after.scopes → AllHeld realm after.scopes [value] →
      machine.scopes.size ≤ after.scopes.size → ok value after) :
    (Run.functionLiteral name decl scope).Ends machine ok stop := by
  refine Run.ends_functionLiteral.mpr ?_
  split
  · exact hok _ _ h (by simpa [Value.scope?] using hscope) (Nat.le_refl _)
  · have hsize : ∀ value,
        machine.scopes.size < (machine.scopes.enclose scope decl.name value).size :=
      fun value => by simp [enclose]
    refine hok _ _ (h.enclose hscope fun inner hinner => ?_) ?_ (Nat.le_of_lt (hsize _))
    · exact (Option.some.inj hinner).symm
    · have hnew : realm.Has (machine.scopes.size + 1) machine.scopes.size :=
        .new h.confined.base_le
      simpa [Value.scope?] using hnew.mono (hsize _)

theorem settles_plain {result : Except RuntimeFault Value} (hresult : Plain result) (span : Span)
    (h : Leads realm start machine.scopes) :
    Run.Settles result span machine
      (fun value after => Leads realm start after.scopes ∧ AllHeld realm after.scopes [value])
      (fun _ after => Leads realm start after.scopes) := by
  cases result with
  | ok value => exact ⟨h, allHeld_of_kind hresult⟩
  | error fault => exact h

theorem atHand_call {callable : Callable} {args : List Value} (span : Span)
    (hcallee : AllHeld realm machine.scopes [.function callable])
    (hargs : AllHeld realm machine.scopes args) :
    ∀ id ∈ (Task.call callable args span).atHand, realm.Has machine.scopes.size id := by
  intro id hid
  obtain ⟨value, hvalue, hinner⟩ := List.mem_filterMap.mp hid
  rcases List.mem_cons.mp hvalue with rfl | harg
  · exact hcallee _ List.mem_cons_self id hinner
  · exact hargs value harg id hinner

theorem step_evaluate (ih : (reach realm start).At fuel) (expr : Expr)
    (hled : Leads realm start machine.scopes) (hscope : realm.Has machine.scopes.size scope) :
    (reach realm start).Step fuel () (.evaluate scope expr) machine := by
  have inUse : ∀ {later : Scopes}, machine.scopes.size ≤ later.size →
      ∀ id ∈ [scope], realm.Has later.size id := fun hle => by simpa using hscope.mono hle
  cases expr with
  | literal value mark =>
      refine carries_literal ⟨hled, allHeld_of_kind ?_⟩
      cases value <;> simp [Value.ofLiteral, Value.kind]
  | «variable» name mark =>
      refine carries_variable (fun value hget => ⟨hled, ?_⟩) fun _ => hled
      exact allHeld_one (hled.confined.get? hscope hget)
  | assign name value mark =>
      refine carries_assign (fun _ => ?_) fun _ => hled
      refine (on_the_way ih (.evaluate scope value) hled (inUse (Nat.le_refl _))).mono
        (fun answer after h => ?_) fun _ _ h => h
      obtain ⟨hleads, hanswer, hsize⟩ := h
      cases hresolve : after.scopes.resolve scope name with
      | some nearest =>
          have hnearest := hleads.confined.resolve (hscope.mono hsize) hresolve
          have hvalue := (allHeld_cons.mp hanswer).1
          exact ⟨hleads.define hnearest hvalue, allHeld_one (by simpa using hvalue)⟩
      | none => exact hleads
  | group inner mark =>
      exact carries_group ((on_the_way ih (.evaluate scope inner) hled
        (inUse (Nat.le_refl _))).mono (fun _ _ h => ⟨h.1, h.2.1⟩) fun _ _ h => h)
  | unary op operand mark =>
      refine carries_unary ((on_the_way ih (.evaluate scope operand) hled
        (inUse (Nat.le_refl _))).mono (fun value after h => ?_) fun _ _ h => h)
      exact settles_plain (op.apply_plain value) mark.span h.1
  | binary op left right mark =>
      refine carries_binary ((on_the_way ih (.evaluate scope left) hled
        (inUse (Nat.le_refl _))).mono (fun x middle h => ?_) fun _ _ h => h)
      refine (on_the_way ih (.evaluate scope right) h.1 (inUse h.2.2)).mono (fun y after h' => ?_)
        fun _ _ h => h
      exact settles_plain (op.apply_plain x y) mark.span h'.1
  | call callee args mark =>
      refine carries_call ((on_the_way ih (.evaluate scope callee) hled
        (inUse (Nat.le_refl _))).mono (fun value middle h => ?_) fun _ _ h => h)
      obtain ⟨hleads, hcallee, hsize⟩ := h
      cases value with
      | function callable =>
          refine (on_the_way ih (.evaluateAll scope args) hleads (inUse hsize)).mono
            (fun values after h => ?_) fun _ _ h => h
          obtain ⟨hleads, hargs, hsize⟩ := h
          split
          · refine (on_the_way ih (.call callable values mark.span) hleads ?_).mono
              (fun _ _ h => ⟨h.1, h.2.1⟩) fun _ _ h => h
            exact atHand_call mark.span (hcallee.mono hsize) hargs
          · exact hleads
      | _ => exact hleads
  | function decl mark =>
      exact carries_function (ends_literal hled hscope fun _ _ hleads hvalue _ => ⟨hleads, hvalue⟩)

theorem step_evaluateAll (ih : (reach realm start).At fuel) (exprs : List Expr)
    (hled : Leads realm start machine.scopes) (hscope : realm.Has machine.scopes.size scope) :
    (reach realm start).Step fuel () (.evaluateAll scope exprs) machine := by
  cases exprs with
  | nil => exact carries_evaluateAll_nil ⟨hled, allHeld_nil⟩
  | cons expr rest =>
      refine carries_evaluateAll_cons ((on_the_way ih (.evaluate scope expr) hled
        (by simpa [Task.atHand] using hscope)).mono (fun value middle h => ?_) fun _ _ h => h)
      obtain ⟨hleads, hvalue, hsize⟩ := h
      refine (on_the_way ih (.evaluateAll scope rest) hleads
        (by simpa [Task.atHand] using hscope.mono hsize)).mono (fun values after h => ?_)
        fun _ _ h => h
      exact ⟨h.1, allHeld_cons.mpr ⟨(allHeld_cons.mp (hvalue.mono h.2.2)).1, h.2.1⟩⟩

theorem step_call (ih : (reach realm start).At fuel) (callable : Callable) (args : List Value)
    (span : Span) (hled : Leads realm start machine.scopes)
    (hatHand : ∀ id ∈ (Task.call callable args span).atHand, realm.Has machine.scopes.size id) :
    (reach realm start).Step fuel () (.call callable args span) machine := by
  have held : ∀ value ∈ Value.function callable :: args, ∀ inner ∈ value.scope?,
      realm.Has machine.scopes.size inner := fun value hvalue inner hinner =>
    hatHand inner (List.mem_filterMap.mpr ⟨value, hvalue, hinner⟩)
  cases callable with
  | builtin builtin =>
      refine carries_builtin (fun value after hscopes hanswer => ⟨?_, allHeld_of_kind ?_⟩)
        fun after hscopes => ?_
      · rw [hscopes]
        exact hled
      · intro hkind
        cases builtin <;> simp [Value.isAnswer, hkind] at hanswer
      · show Leads realm start after.scopes
        rw [hscopes]
        exact hled
  | closure closure =>
      have hclosure : realm.Has machine.scopes.size closure.scope :=
        held _ List.mem_cons_self _ rfl
      have henter : Leads realm start
          (machine.scopes.enter closure.scope closure.decl.params args) :=
        hled.enter hclosure fun arg harg => held arg (List.mem_cons_of_mem _ harg)
      have hnew : realm.Has (machine.scopes.size + 1) machine.scopes.size :=
        .new hled.confined.base_le
      have hown := hnew.mono (lt_size_enter machine.scopes closure.scope closure.decl.params args)
      refine carries_closure ((on_the_way ih _ henter ?_).mono (fun flow after h => ?_)
        fun _ _ h => h)
      · simpa [Task.atHand, Value.scope?] using hown
      · cases flow with
        | returned value => exact ⟨h.1, h.2.1⟩
        | normal value => exact ⟨h.1, allHeld_of_kind (by simp [Value.kind])⟩

theorem step_execute (ih : (reach realm start).At fuel) (stmt : Stmt)
    (hled : Leads realm start machine.scopes) (hscope : realm.Has machine.scopes.size scope) :
    (reach realm start).Step fuel () (.execute scope stmt) machine := by
  have hinUse : ∀ id ∈ [scope], realm.Has machine.scopes.size id := by simpa using hscope
  have hnothing : ∀ scopes, AllHeld realm scopes [Value.nothing] := fun _ =>
    allHeld_of_kind (by simp [Value.kind])
  cases stmt with
  | expression expr =>
      exact carries_expression ((on_the_way ih (.evaluate scope expr) hled hinUse).mono
        (fun _ _ h => ⟨h.1, h.2.1⟩) fun _ _ h => h)
  | binding name declared init mark =>
      have hbind : ∀ value (after : Machine), Leads realm start after.scopes →
          AllHeld realm after.scopes [value] → machine.scopes.size ≤ after.scopes.size →
          (reach realm start).post () (.execute scope (.binding name declared init mark)) machine
            (.normal .nothing)
            { after with scopes := after.scopes.define scope name value } :=
        fun value after hleads hvalue hsize =>
          ⟨hleads.define (hscope.mono hsize) (allHeld_cons.mp hvalue).1, hnothing _⟩
      cases init with
      | none => exact carries_uninitialized (hbind _ machine hled (hnothing _) (Nat.le_refl _))
      | some init =>
          refine carries_binding (fun decl slot _ => ?_) fun _ => ?_
          · exact ends_literal hled hscope hbind
          · exact (on_the_way ih (.evaluate scope init) hled hinUse).mono
              (fun value after h => hbind value after h.1 h.2.1 h.2.2) fun _ _ h => h
  | block block =>
      exact carries_block ((in_block ih hled hscope block.statements).mono
        (fun _ _ h => ⟨h.1, h.2.1⟩) fun _ _ h => h)
  | conditional condition thenBlock otherwise span =>
      refine carries_conditional ((on_the_way ih (.evaluate scope condition) hled hinUse).mono
        (fun truth middle h => ?_) fun _ _ h => h)
      obtain ⟨hleads, -, hsize⟩ := h
      split
      · exact (in_block ih hleads (hscope.mono hsize) thenBlock.statements).mono
          (fun _ _ h => ⟨h.1, h.2.1⟩) fun _ _ h => h
      · cases otherwise with
        | none => exact ⟨hleads, hnothing _⟩
        | some stmt =>
            exact (on_the_way ih (.execute scope stmt) hleads
              (by simpa [Task.atHand] using hscope.mono hsize)).mono
              (fun _ _ h => ⟨h.1, h.2.1⟩) fun _ _ h => h
  | loop condition body span =>
      exact carries_loop ((on_the_way ih (.repeatWhile scope condition body) hled hinUse).mono
        (fun _ _ h => ⟨h.1, h.2.1⟩) fun _ _ h => h)
  | function decl =>
      refine carries_declaration fun value hvalue => ?_
      have hheld : AllHeld realm machine.scopes [value] := by
        rw [hvalue]
        simpa [Value.scope?] using hscope
      refine ⟨hled.define hscope (allHeld_cons.mp hheld).1, ?_⟩
      show AllHeld realm _ [if decl.anonymous then value else .nothing]
      split
      · exact hheld.mono (by simp)
      · exact hnothing _
  | ret value span =>
      cases value with
      | none => exact carries_finish ⟨hled, hnothing _⟩
      | some value =>
          exact carries_ret ((on_the_way ih (.evaluate scope value) hled hinUse).mono
            (fun _ _ h => ⟨h.1, h.2.1⟩) fun _ _ h => h)

theorem step_executeAll (ih : (reach realm start).At fuel) (last : Value) (stmts : List Stmt)
    (hled : Leads realm start machine.scopes)
    (hatHand : ∀ id ∈ (Task.executeAll scope last stmts).atHand, realm.Has machine.scopes.size id) :
    (reach realm start).Step fuel () (.executeAll scope last stmts) machine := by
  have hscope : realm.Has machine.scopes.size scope := hatHand scope List.mem_cons_self
  have hlast : AllHeld realm machine.scopes [last] := allHeld_one fun inner hinner =>
    hatHand inner (List.mem_cons_of_mem _ (Option.mem_toList.mpr hinner))
  cases stmts with
  | nil => exact carries_executeAll_nil ⟨hled, hlast⟩
  | cons stmt rest =>
      refine carries_executeAll_cons ((on_the_way ih (.execute scope stmt) hled
        (by simpa [Task.atHand] using hscope)).mono (fun flow middle h => ?_) fun _ _ h => h)
      obtain ⟨hleads, hflow, hsize⟩ := h
      cases flow with
      | returned value => exact ⟨hleads, hflow⟩
      | normal value =>
          refine (on_the_way ih (.executeAll scope value rest) hleads ?_).mono
            (fun _ _ h => ⟨h.1, h.2.1⟩) fun _ _ h => h
          refine List.forall_mem_cons.mpr ⟨hscope.mono hsize, fun inner hinner => ?_⟩
          exact hflow value List.mem_cons_self inner (Option.mem_toList.mp hinner)

theorem step_repeatWhile (ih : (reach realm start).At fuel) (condition : Expr) (body : Block)
    (hled : Leads realm start machine.scopes) (hscope : realm.Has machine.scopes.size scope) :
    (reach realm start).Step fuel () (.repeatWhile scope condition body) machine := by
  refine carries_repeatWhile ((on_the_way ih (.evaluate scope condition) hled
    (by simpa [Task.atHand] using hscope)).mono (fun truth middle h => ?_) fun _ _ h => h)
  obtain ⟨hleads, -, hsize⟩ := h
  split
  · refine (in_block ih hleads (hscope.mono hsize) body.statements).mono (fun flow after h => ?_)
      fun _ _ h => h
    cases flow with
    | normal value =>
        refine (on_the_way ih (.repeatWhile scope condition body) h.1 ?_).mono
          (fun _ _ h => ⟨h.1, h.2.1⟩) fun _ _ h => h
        simpa [Task.atHand] using hscope.mono (Nat.le_trans hsize h.2.2)
    | returned value => exact ⟨h.1, h.2.1⟩
  · exact ⟨hleads, allHeld_of_kind (by simp [Flow.value, Value.kind])⟩

theorem kept : (reach realm start).Kept where
  exhausted _ _ _ h := h.1
  step fuel ih _ task machine h := by
    obtain ⟨hled, hatHand⟩ := h
    cases task with
    | evaluate scope expr =>
        exact step_evaluate ih expr hled (hatHand scope (by simp [Task.atHand]))
    | evaluateAll scope exprs =>
        exact step_evaluateAll ih exprs hled (hatHand scope (by simp [Task.atHand]))
    | call callable args span => exact step_call ih callable args span hled hatHand
    | execute scope stmt =>
        exact step_execute ih stmt hled (hatHand scope (by simp [Task.atHand]))
    | executeAll scope last stmts => exact step_executeAll ih last stmts hled hatHand
    | repeatWhile scope condition body =>
        exact step_repeatWhile ih condition body hled (hatHand scope (by simp [Task.atHand]))

end reach

/-- Every run stays within a realm that holds what the run has at hand. -/
theorem Task.leads {realm : Realm} (fuel : Nat) (task : Task) (machine : Machine)
    (confined : machine.scopes.Confined realm)
    (hatHand : ∀ id ∈ task.atHand, realm.Has machine.scopes.size id) :
    (task.run fuel).Ends machine
      (fun answer after => Scopes.Leads realm machine.scopes after.scopes ∧
        AllHeld realm after.scopes (task.answers answer))
      (fun _ after => Scopes.Leads realm machine.scopes after.scopes) :=
  reach.kept.at fuel () task machine ⟨.refl confined, hatHand⟩

end Scriptlet
