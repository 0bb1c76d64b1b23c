import Scriptlet.Proofs.Running.Rules

/-! What a run does to the scopes that are there before it. Only statements add names, each to
the scope in which it is executed, and one that is executed to its end has added its own. -/

namespace Scriptlet

namespace Stmt

def declares : Stmt → List String
  | .binding name .. => [name]
  | .function decl => [decl.name]
  | _ => []

/-- The names that a statement may bind in the scope in which it is executed. -/
def opens : Stmt → List String
  | .binding name .. => [name]
  | .function decl => [decl.name]
  | .conditional _ _ (some otherwise) _ => otherwise.opens
  | _ => []

end Stmt

namespace Task

def opens : Task → ScopeId → String → Prop
  | .execute scope stmt, id, name => id = scope ∧ name ∈ stmt.opens
  | .executeAll scope _ stmts, id, name => id = scope ∧ name ∈ stmts.flatMap Stmt.opens
  | _, _, _ => False

/-- A scope has the names of the statements that were executed in it to their ends. -/
def Declared (before after : Scopes) : (task : Task) → task.Answer → Prop
  | .execute scope stmt, .normal _ =>
      scope < before.size → ∀ name ∈ stmt.declares, after.binds scope name
  | .executeAll scope _ stmts, .normal _ =>
      scope < before.size → ∀ name ∈ stmts.flatMap Stmt.declares, after.binds scope name
  | _, _ => True

end Task

theorem Task.declared_of_nil {before after : Scopes} {scope : ScopeId} {stmt : Stmt}
    (h : stmt.declares = []) (flow : Flow) :
    Task.Declared before after (.execute scope stmt) flow := by
  cases flow with
  | normal value =>
      intro _ name hname
      simp [h] at hname
  | returned value => trivial

def frame : Contract Unit where
  pre _ _ _ := True
  post _ task before answer after :=
    before.scopes.Extends task.opens after.scopes ∧
      task.Declared before.scopes after.scopes answer
  stop _ task before _ after := before.scopes.Extends task.opens after.scopes

namespace frame

open Scopes

variable {fuel : Nat} {opens : ScopeId → String → Prop} {before : Scopes} {machine : Machine}

theorem on_the_way (ih : frame.At fuel) (task : Task) (h : Extends opens before machine.scopes)
    (hopens : ∀ id < before.size, ∀ name, task.opens id name → opens id name) :
    Visits frame.Visited fuel task machine
      (fun answer after => Extends opens before after.scopes ∧
        machine.scopes.Extends task.opens after.scopes ∧
        task.Declared machine.scopes after.scopes answer)
      (fun _ after => Extends opens before after.scopes) :=
  (ih.visits () trivial).mono
    (fun _ _ hpost => ⟨h.trans hpost.1 hopens, hpost⟩) fun _ _ hstop => h.trans hstop hopens

theorem quietly (ih : frame.At fuel) (task : Task) (h : Extends opens before machine.scopes)
    (htask : task.opens = fun _ _ => False) :
    Visits frame.Visited fuel task machine (fun _ after => Extends opens before after.scopes)
      (fun _ after => Extends opens before after.scopes) := by
  refine (on_the_way ih task h fun id _ name hname => ?_).mono (fun _ _ hpost => hpost.1)
    fun _ _ hstop => hstop
  rw [htask] at hname
  exact hname.elim

theorem in_block (ih : frame.At fuel) (outer : ScopeId) (stmts : List Stmt)
    (h : Extends opens before machine.scopes) :
    Visits frame.Visited fuel (.executeAll machine.scopes.size .nothing stmts)
      { machine with scopes := (machine.scopes.addInside outer).1 }
      (fun _ after => Extends opens before after.scopes)
      (fun _ after => Extends opens before after.scopes) := by
  have hinner : Extends opens before (machine.scopes.addInside outer).1 :=
    h.trans (.addInside opens _ outer) fun _ _ _ hname => hname
  refine (on_the_way ih _ hinner fun id hid name hname => ?_).mono (fun _ _ hpost => hpost.1)
    fun _ _ hstop => hstop
  have hnew : id = machine.scopes.size := hname.1
  have hsize := h.size_le
  omega

theorem step_evaluate (ih : frame.At fuel) (scope : ScopeId) (expr : Expr) :
    frame.Step fuel () (.evaluate scope expr) machine := by
  have hrefl : Quiet machine.scopes machine.scopes := .refl _ _
  cases expr with
  | literal value mark => exact carries_literal ⟨hrefl, trivial⟩
  | «variable» name mark =>
      exact carries_variable (fun _ _ => ⟨hrefl, trivial⟩) fun _ => hrefl
  | assign name value mark =>
      refine carries_assign (fun _ => ?_) fun _ => hrefl
      refine (quietly ih (.evaluate scope value) hrefl rfl).mono (fun answer after h => ?_)
        fun _ _ h => h
      cases hresolve : after.scopes.resolve scope name with
      | some nearest =>
          have hbinds := binds_of_resolve hresolve
          have hdefine := Extends.define_of_binds hbinds (fun _ _ => False) answer
          exact ⟨h.trans hdefine fun _ _ _ hname => hname, trivial⟩
      | none => exact h
  | group inner mark =>
      exact carries_group ((quietly ih (.evaluate scope inner) hrefl rfl).mono
        (fun _ _ h => ⟨h, trivial⟩) fun _ _ h => h)
  | unary op operand mark =>
      refine carries_unary ((quietly ih (.evaluate scope operand) hrefl rfl).mono
        (fun value after h => ?_) fun _ _ h => h)
      cases hop : op.apply value with
      | ok result => exact ⟨h, trivial⟩
      | error fault => exact h
  | binary op left right mark =>
      refine carries_binary ((quietly ih (.evaluate scope left) hrefl rfl).mono
        (fun x middle h => ?_) fun _ _ h => h)
      refine (quietly ih (.evaluate scope right) h rfl).mono (fun y after h => ?_) fun _ _ h => h
      cases hop : op.apply x y with
      | ok result => exact ⟨h, trivial⟩
      | error fault => exact h
  | call callee args mark =>
      refine carries_call ((quietly ih (.evaluate scope callee) hrefl rfl).mono
        (fun value middle h => ?_) fun _ _ h => h)
      cases value with
      | function callable =>
          refine (quietly ih (.evaluateAll scope args) h rfl).mono (fun values after h => ?_)
            fun _ _ h => h
          split
          · exact (quietly ih (.call callable values mark.span) h rfl).mono
              (fun _ _ h => ⟨h, trivial⟩) fun _ _ h => h
          · exact h
      | _ => exact h
  | function decl mark =>
      refine carries_function (Run.ends_functionLiteral.mpr ?_)
      split
      · exact ⟨hrefl, trivial⟩
      · exact ⟨.enclose _ _ _ _ _, trivial⟩

theorem step_evaluateAll (ih : frame.At fuel) (scope : ScopeId) (exprs : List Expr) :
    frame.Step fuel () (.evaluateAll scope exprs) machine := by
  have hrefl : Quiet machine.scopes machine.scopes := .refl _ _
  cases exprs with
  | nil => exact carries_evaluateAll_nil ⟨hrefl, trivial⟩
  | cons expr rest =>
      refine carries_evaluateAll_cons ((quietly ih (.evaluate scope expr) hrefl rfl).mono
        (fun value middle h => ?_) fun _ _ h => h)
      exact (quietly ih (.evaluateAll scope rest) h rfl).mono (fun _ _ h => ⟨h, trivial⟩)
        fun _ _ h => h

theorem step_call (ih : frame.At fuel) (callable : Callable) (args : List Value) (span : Span) :
    frame.Step fuel () (.call callable args span) machine := by
  cases callable with
  | builtin builtin =>
      refine carries_builtin (fun value after hscopes _ => ⟨?_, trivial⟩) fun after hscopes => ?_
      · rw [hscopes]
        exact .refl _ _
      · show Quiet machine.scopes after.scopes
        rw [hscopes]
        exact .refl _ _
  | closure closure =>
      have henter := Extends.enter (fun _ _ => False) machine.scopes closure.scope
        closure.decl.params args
      refine carries_closure ((on_the_way ih _ henter fun id hid name hname => ?_).mono
        (fun flow after h => ?_) fun _ _ h => h)
      · exact absurd hname.1 (Nat.ne_of_lt hid)
      · cases flow <;> exact ⟨h.1, trivial⟩

theorem step_execute (ih : frame.At fuel) (scope : ScopeId) (stmt : Stmt) :
    frame.Step fuel () (.execute scope stmt) machine := by
  have hrefl : Extends (Task.execute scope stmt).opens machine.scopes machine.scopes := .refl _ _
  cases stmt with
  | expression expr =>
      exact carries_expression ((quietly ih (.evaluate scope expr) hrefl rfl).mono
        (fun _ _ h => ⟨h, Task.declared_of_nil rfl _⟩) fun _ _ h => h)
  | binding name declared init mark =>
      have hdefine : ∀ value (after : Machine),
          Extends (Task.execute scope (.binding name declared init mark)).opens machine.scopes
            after.scopes →
          frame.post () (.execute scope (.binding name declared init mark)) machine
            (.normal .nothing)
            { after with scopes := after.scopes.define scope name value } := by
        intro value after h
        refine ⟨h.trans (.define _ _ name value) fun id _ key hkey => ?_, fun hscope key hkey => ?_⟩
        · exact ⟨hkey.1, List.mem_singleton.mpr hkey.2⟩
        · obtain rfl : key = name := List.mem_singleton.mp hkey
          have hlt := Nat.lt_of_lt_of_le hscope h.size_le
          simp [binds, own?_define_self hlt]
      cases init with
      | none => exact carries_uninitialized (hdefine _ _ hrefl)
      | some init =>
          refine carries_binding (fun decl slot _ => ?_) fun _ => ?_
          · refine Run.ends_functionLiteral.mpr ?_
            split
            · exact hdefine _ _ hrefl
            · exact hdefine _ _ (.enclose _ _ _ _ _)
          · exact (quietly ih (.evaluate scope init) hrefl rfl).mono
              (fun value after h => hdefine value after h) fun _ _ h => h
  | block block =>
      exact carries_block ((in_block ih scope block.statements hrefl).mono
        (fun flow _ h => ⟨h, Task.declared_of_nil rfl flow⟩) fun _ _ h => h)
  | conditional condition thenBlock otherwise span =>
      refine carries_conditional ((quietly ih (.evaluate scope condition) hrefl rfl).mono
        (fun truth middle h => ?_) fun _ _ h => h)
      split
      · exact (in_block ih scope thenBlock.statements h).mono
          (fun flow _ h => ⟨h, Task.declared_of_nil rfl flow⟩) fun _ _ h => h
      · cases otherwise with
        | none => exact ⟨h, Task.declared_of_nil rfl _⟩
        | some stmt =>
            refine (on_the_way ih (.execute scope stmt) h fun id _ name hname => ?_).mono
              (fun flow _ h => ⟨h.1, Task.declared_of_nil rfl flow⟩) fun _ _ h => h
            exact ⟨hname.1, by simpa [Stmt.opens] using hname.2⟩
  | loop condition body span =>
      exact carries_loop ((quietly ih (.repeatWhile scope condition body) hrefl rfl).mono
        (fun flow _ h => ⟨h, Task.declared_of_nil rfl flow⟩) fun _ _ h => h)
  | function decl =>
      refine carries_declaration fun value _ => ⟨?_, fun hscope name hname => ?_⟩
      · refine (Extends.define _ scope decl.name value).mono fun id _ name hname => ?_
        exact ⟨hname.1, List.mem_singleton.mpr hname.2⟩
      · obtain rfl : name = decl.name := List.mem_singleton.mp hname
        simp [binds, own?_define_self hscope]
  | ret value span =>
      cases value with
      | none => exact carries_finish ⟨hrefl, trivial⟩
      | some value =>
          exact carries_ret ((quietly ih (.evaluate scope value) hrefl rfl).mono
            (fun _ _ h => ⟨h, trivial⟩) fun _ _ h => h)

theorem step_executeAll (ih : frame.At fuel) (scope : ScopeId) (last : Value)
    (stmts : List Stmt) : frame.Step fuel () (.executeAll scope last stmts) machine := by
  cases stmts with
  | nil => exact carries_executeAll_nil ⟨.refl _ _, fun _ => nofun⟩
  | cons stmt rest =>
      have hrefl : Extends (Task.executeAll scope last (stmt :: rest)).opens machine.scopes
          machine.scopes := .refl _ _
      have hfirst : ∀ id name, (Task.execute scope stmt).opens id name →
          (Task.executeAll scope last (stmt :: rest)).opens id name :=
        fun _ _ hname => ⟨hname.1, List.mem_append_left _ hname.2⟩
      have hrest : ∀ value id name, (Task.executeAll scope value rest).opens id name →
          (Task.executeAll scope last (stmt :: rest)).opens id name :=
        fun _ _ _ hname => ⟨hname.1, List.mem_append_right _ hname.2⟩
      refine carries_executeAll_cons ((on_the_way ih (.execute scope stmt) hrefl
        fun id _ name hname => hfirst id name hname).mono (fun flow middle h => ?_) fun _ _ h => h)
      obtain ⟨hextends, hstmt, hdeclared⟩ := h
      cases flow with
      | returned value => exact ⟨hextends, trivial⟩
      | normal value =>
          refine (on_the_way ih (.executeAll scope value rest) hextends
            fun id _ name hname => hrest value id name hname).mono (fun flow after h => ⟨h.1, ?_⟩)
            fun _ _ h => h
          obtain ⟨_, hafter, hdeclaredRest⟩ := h
          cases flow with
          | returned value => trivial
          | normal value =>
              intro hscope name hname
              rcases List.mem_append.mp hname with hname | hname
              · exact hafter.binds scope name (hdeclared hscope name hname)
              · exact hdeclaredRest (Nat.lt_of_lt_of_le hscope hstmt.size_le) name hname

theorem step_repeatWhile (ih : frame.At fuel) (scope : ScopeId) (condition : Expr)
    (body : Block) : frame.Step fuel () (.repeatWhile scope condition body) machine := by
  have hrefl : Quiet machine.scopes machine.scopes := .refl _ _
  refine carries_repeatWhile ((quietly ih (.evaluate scope condition) hrefl rfl).mono
    (fun truth middle h => ?_) fun _ _ h => h)
  split
  · refine (in_block ih scope body.statements h).mono (fun flow after h => ?_) fun _ _ h => h
    cases flow with
    | normal value =>
        exact (quietly ih (.repeatWhile scope condition body) h rfl).mono
          (fun _ _ h => ⟨h, trivial⟩) fun _ _ h => h
    | returned value => exact ⟨h, trivial⟩
  · exact ⟨h, trivial⟩

theorem kept : frame.Kept where
  exhausted _ _ _ _ := .refl _ _
  step fuel ih _ task machine _ := by
    cases task with
    | evaluate scope expr => exact step_evaluate ih scope expr
    | evaluateAll scope exprs => exact step_evaluateAll ih scope exprs
    | call callable args span => exact step_call ih callable args span
    | execute scope stmt => exact step_execute ih scope stmt
    | executeAll scope last stmts => exact step_executeAll ih scope last stmts
    | repeatWhile scope condition body => exact step_repeatWhile ih scope condition body

end frame

/-- Every run keeps the scopes that are there before it, whatever the program. -/
theorem Task.frame (fuel : Nat) (task : Task) (machine : Machine) :
    (task.run fuel).Ends machine
      (fun answer after => machine.scopes.Extends task.opens after.scopes ∧
        task.Declared machine.scopes after.scopes answer)
      (fun _ after => machine.scopes.Extends task.opens after.scopes) :=
  Scriptlet.frame.kept.at fuel () task machine trivial

end Scriptlet
