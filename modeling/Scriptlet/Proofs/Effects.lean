import Scriptlet.Proofs.Errors
import Scriptlet.Proofs.Running.Reach
import Scriptlet.Proofs.Tree.Parts

/-! What a run does to the scopes that are there when it begins. It changes nothing that it could
not reach then, and no name or link of the rest, but for the names that statements declare in the
scope in which they are executed. -/

namespace Scriptlet

namespace Scopes

variable {scopes before after : Scopes} {scope : ScopeId}

/-- What cannot be reached from the scope is left as it is, its bindings and its link. -/
def Spares (scope : ScopeId) (before after : Scopes) : Prop :=
  ∀ id < before.size, ¬before.Reaches scope id → after.all[id]? = before.all[id]?

/-- The scopes keep their links and all their names, and only the scope in use may get others. -/
structure Keeps (scope : ScopeId) (names : List String) (before after : Scopes) : Prop where
  size_le : before.size ≤ after.size
  link : ∀ id < before.size, after.link? id = before.link? id
  binds : ∀ id name, before.binds id name → after.binds id name
  added : ∀ id < before.size, ∀ name, after.binds id name →
    before.binds id name ∨ id = scope ∧ name ∈ names

def realmOf (scopes : Scopes) (scope : ScopeId) : Realm := ⟨scopes.Reaches scope, scopes.size⟩

theorem has_realmOf {id : ScopeId} (h : (scopes.realmOf scope).Has scopes.size id) :
    scopes.Reaches scope id :=
  h.resolve_right fun hmade => absurd hmade.2 (Nat.not_lt.mpr hmade.1)

theorem confined_realmOf (scopes : Scopes) (scope : ScopeId) :
    scopes.Confined (scopes.realmOf scope) :=
  ⟨Nat.le_refl _, fun _ _ hid hlink => .inl ((has_realmOf hid).outward hlink),
    fun _ _ _ _ hid hbound hinner => .inl ((has_realmOf hid).bound hbound hinner)⟩

theorem Leads.spares (h : Leads (before.realmOf scope) before after) :
    before.Spares scope after :=
  fun id hid hfirst => h.untouched id hid hfirst

end Scopes

/-- A function leads to what could be reached from the scope, and to what was made since. -/
def Value.StaysWithin (scope : ScopeId) (before after : Scopes) (value : Value) : Prop :=
  ∀ inner ∈ value.scope?, ∀ id, after.Reaches inner id →
    before.Reaches scope id ∨ before.size ≤ id ∧ id < after.size

theorem Scopes.Leads.staysWithin {before after : Scopes} {scope : ScopeId} {value : Value}
    (h : Leads (before.realmOf scope) before after)
    (held : AllHeld (before.realmOf scope) after [value]) :
    value.StaysWithin scope before after :=
  fun inner hinner _ hid => h.confined.reaches (held value List.mem_cons_self inner hinner) hid

/-- Whether every `else` of a statement leads to a block or to another `if`. -/
def Stmt.branches : Stmt → Bool
  | .conditional _ _ (some otherwise) _ => otherwise.isBranch && otherwise.branches
  | _ => true

theorem Stmt.declares_of_isBranch {stmt : Stmt} (h : stmt.isBranch) : stmt.declares = [] := by
  cases stmt with
  | block | conditional => rfl
  | _ => simp [isBranch] at h

/-- Such a statement binds no names but the one that it declares. -/
theorem Stmt.opens_of_branches : (stmt : Stmt) → stmt.branches → stmt.opens = stmt.declares
  | .conditional _ _ (some otherwise) _, h => by
      obtain ⟨hbranch, hbranches⟩ := Bool.and_eq_true_iff.mp h
      rw [opens, otherwise.opens_of_branches hbranches, declares_of_isBranch hbranch]
      rfl
  | .conditional _ _ none _, _ => rfl
  | .expression _, _ | .binding .., _ | .block _, _ | .loop .., _ | .function _, _ | .ret .., _ =>
      rfl

theorem Stmt.branches_relabel (change : Relabel) : (stmt : Stmt) →
    (stmt.relabel change).branches = stmt.branches
  | .conditional _ _ (some otherwise) _ => by
      rw [relabel, relabel?, branches, branches, isBranch_relabel, otherwise.branches_relabel]
  | .conditional _ _ none _ => rfl
  | .expression _ | .binding .. | .block _ | .loop .. | .function _ | .ret .. => rfl

theorem Stmt.branches_of_fresh : (stmt : Stmt) → Fresh stmt.nodes → stmt.branches
  | .conditional _ _ (some otherwise) _, h => by
      obtain ⟨hbranch, hbelow⟩ := List.forall_mem_cons.mp h
      refine Bool.and_eq_true_iff.mpr ⟨hbranch, otherwise.branches_of_fresh fun node hnode => ?_⟩
      exact hbelow node (List.mem_append_right _ (List.mem_append_right _ hnode))
  | .conditional _ _ none _, _ => rfl
  | .expression _, _ | .binding .., _ | .block _, _ | .loop .., _ | .function _, _ | .ret .., _ =>
      rfl

theorem Program.branches_of_fresh {program : Program} (fresh : Fresh program.nodes) {stmt : Stmt}
    (h : .stmt stmt ∈ program.nodes) : stmt.branches :=
  stmt.branches_of_fresh fun node hnode => fresh node (Stmt.allWhole _ _ h hnode)

theorem Session.compile_untyped {session after : Session} {source : String} {program : Program}
    (h : session.compile source = (after, .ok program)) :
    (Program.ofSource source session.unnamed).result = .ok (program.relabel .untyped) := by
  cases hread : (Program.ofSource source session.unnamed).result with
  | error e => simp [compile, hread] at h
  | ok parsed =>
      have fresh := Program.ofSource_fresh hread
      simp only [compile, hread, check, observe] at h
      cases hchecker : session.checker with
      | none =>
          simp only [hchecker, Prod.mk.injEq, Except.ok.injEq] at h
          obtain ⟨-, rfl⟩ := h
          rw [Program.relabel, Relabel.clears_untyped.stmts fresh]
      | some checker =>
          simp only [hchecker] at h
          cases hcheck : (parsed.check checker).result with
          | error e => simp [hcheck] at h
          | ok =>
              simp only [hcheck, Prod.mk.injEq, Except.ok.injEq] at h
              obtain ⟨-, rfl⟩ := h
              rw [Program.check_untyped fresh]

/-- In a program that compiles an `else` leads to a block or to another `if`. -/
theorem Session.compile_branches {session after : Session} {source : String} {program : Program}
    (h : session.compile source = (after, .ok program)) {stmt : Stmt}
    (hstmt : .stmt stmt ∈ program.nodes) : stmt.branches := by
  rw [← Stmt.branches_relabel .untyped]
  refine Program.branches_of_fresh (Program.ofSource_fresh (compile_untyped h)) ?_
  rw [Program.nodes_relabel]
  exact List.mem_map_of_mem hstmt

namespace Scopes

variable {opens : ScopeId → String → Prop} {before after : Scopes} {scope : ScopeId}
  {name : String}

theorem lt_size_of_contains (h : before.contains scope name) : scope < before.size := by
  refine Nat.lt_of_not_le fun hle => ?_
  have hbinds : ¬before.binds scope name := by simp [binds, own?_of_size_le hle]
  rw [contains, resolve_of_not_binds hbinds, outer?_of_size_le hle] at h
  cases h

theorem Extends.contains (hextends : Extends opens before after)
    (h : before.contains scope name) : after.contains scope name := by
  have hscope := lt_size_of_contains h
  rw [Scopes.contains, resolve_eq_find?] at h ⊢
  rw [hextends.path_eq hscope]
  obtain ⟨found, hmem, hbinds⟩ := List.find?_isSome.mp h
  exact List.find?_isSome.mpr ⟨found, hmem, hextends.binds _ _ hbinds⟩

end Scopes

theorem Task.links (fuel : Nat) (task : Task) (machine : Machine) :
    (task.run fuel).Ends machine
      (fun _ after => ∀ id < machine.scopes.size, after.scopes.link? id = machine.scopes.link? id)
      (fun _ after =>
        ∀ id < machine.scopes.size, after.scopes.link? id = machine.scopes.link? id) := by
  -- everything may be reached
  have hall : ∀ size id, Realm.Has ⟨fun _ => True, machine.scopes.size⟩ size id :=
    fun _ _ => .inl trivial
  have hconfined : machine.scopes.Confined ⟨fun _ => True, machine.scopes.size⟩ :=
    ⟨Nat.le_refl _, fun _ _ _ _ => hall _ _, fun _ _ _ _ _ _ _ => hall _ _⟩
  exact (Task.leads fuel task machine hconfined fun _ _ => hall _ _).mono
    (fun _ _ h => h.1.link) fun _ _ h => h.link

/-- A task keeps the scopes but for the names that it opens in the scope in use. -/
theorem Task.keeps (fuel : Nat) (task : Task) (machine : Machine) {scope : ScopeId}
    {names : List String}
    (hopens : ∀ id name, task.opens id name → id = scope ∧ name ∈ names) :
    (task.run fuel).Ends machine
      (fun _ after => machine.scopes.Keeps scope names after.scopes)
      (fun _ after => machine.scopes.Keeps scope names after.scopes) := by
  have hkeeps : ∀ after : Scopes, machine.scopes.Extends task.opens after →
      (∀ id < machine.scopes.size, after.link? id = machine.scopes.link? id) →
      machine.scopes.Keeps scope names after := fun after hextends hlinks =>
    ⟨hextends.size_le, hlinks, hextends.binds, fun id hid name hname =>
      (hextends.opened id hid name hname).imp_right (hopens id name)⟩
  exact ((Task.frame fuel task machine).and (Task.links fuel task machine)).mono
    (fun _ after h => hkeeps after.scopes h.1.1 h.2) fun _ after h => hkeeps after.scopes h.1 h.2

namespace Run

/-- However an expression or a statement ends, every scope that cannot be reached from the one in
which it is run is left as it is, and a function that it comes to leads nowhere else. -/
theorem effects_confined (fuel : Nat) (scope : ScopeId) (machine : Machine) :
    (∀ expr, (evaluate fuel scope expr).Ends machine
      (fun value after => machine.scopes.Spares scope after.scopes ∧
        value.StaysWithin scope machine.scopes after.scopes)
      (fun _ after => machine.scopes.Spares scope after.scopes)) ∧
    ∀ stmt, (execute fuel scope stmt).Ends machine
      (fun flow after => machine.scopes.Spares scope after.scopes ∧
        flow.value.StaysWithin scope machine.scopes after.scopes)
      (fun _ after => machine.scopes.Spares scope after.scopes) := by
  have hatHand : ∀ id ∈ [scope],
      (machine.scopes.realmOf scope).Has machine.scopes.size id := fun id hid =>
    List.mem_singleton.mp hid ▸ .inl .here
  have hconfined := machine.scopes.confined_realmOf scope
  constructor
  · intro expr
    exact (Task.leads fuel (.evaluate scope expr) machine hconfined hatHand).mono
      (fun _ _ h => ⟨h.1.spares, h.1.staysWithin h.2⟩) fun _ _ h => h.spares
  · intro stmt
    exact (Task.leads fuel (.execute scope stmt) machine hconfined hatHand).mono
      (fun _ _ h => ⟨h.1.spares, h.1.staysWithin h.2⟩) fun _ _ h => h.spares

theorem bind_congr_of_ends {α β : Type} {run : Run β} {next other : β → Run α} {machine : Machine}
    (h : run.Ends machine (fun value after => next value after = other value after)
      fun _ _ => True) : (run >>= next) machine = (run >>= other) machine := by
  simp only [bind, EStateM.bind]
  cases hrun : run machine with
  | ok value after => exact h.of_ok hrun
  | error reason after => rfl

/-- An assignment without the failure for a name that has been lost in the meantime. -/
def assignFound (fuel : Nat) (scope : ScopeId) (name : String) (value : Expr) (mark : Mark) :
    Run Value := do
  if ← isBound scope name then
    let value ← evaluate fuel scope value
    let _ ← assign scope name value
    return value
  else fail (.undeclaredTarget name) mark.span

theorem assign_of_contains {fuel : Nat} {scope : ScopeId} {name : String} {machine : Machine}
    (h : machine.scopes.contains scope name) (value : Expr) :
    (evaluate fuel scope value).Ends machine
      (fun answer after => ∃ changed, assign scope name answer after = .ok true changed)
      (fun _ _ => True) := by
  refine (Task.frame fuel (.evaluate scope value) machine).mono (fun answer after hframe => ?_)
    fun _ _ _ => trivial
  obtain ⟨nearest, hnearest⟩ := Option.isSome_iff_exists.mp (hframe.1.contains h)
  exact ⟨_, by rw [assign, hnearest]⟩

theorem evaluate_assign (fuel : Nat) (scope : ScopeId) (name : String) (value : Expr)
    (mark : Mark) :
    evaluate (fuel + 1) scope (.assign name value mark) =
      assignFound fuel scope name value mark := by
  funext machine
  rw [evaluate, assignFound]
  refine bind_congr_of_ends (ends_isBound.mpr ?_)
  by_cases hcontains : machine.scopes.contains scope name
  · simp only [hcontains, if_true]
    refine bind_congr_of_ends ((assign_of_contains hcontains value).mono (fun answer after h => ?_)
      fun _ _ _ => trivial)
    obtain ⟨changed, hassign⟩ := h
    refine bind_congr_of_ends ?_
    simp only [Ends, hassign, if_true]
  · simp only [hcontains, Bool.false_eq_true, if_false]

/-- However an expression or a statement ends, no scope that was there loses a name or gets another
link. An expression gives a name to none of them, and a statement at most to the scope in which it
is executed, the name that it declares. So a name that is found before an assignment can still be
assigned to once there is a value, and the failure for one that cannot never comes up. -/
theorem no_scope_leaks (fuel : Nat) (scope : ScopeId) (machine : Machine) :
    (∀ expr, (evaluate fuel scope expr).Ends machine
      (fun _ after => machine.scopes.Keeps scope [] after.scopes)
      (fun _ after => machine.scopes.Keeps scope [] after.scopes)) ∧
    (∀ stmt : Stmt, stmt.branches → (execute fuel scope stmt).Ends machine
      (fun _ after => machine.scopes.Keeps scope stmt.declares after.scopes)
      (fun _ after => machine.scopes.Keeps scope stmt.declares after.scopes)) ∧
    (∀ (session after : Session) (source : String) (program : Program),
      session.compile source = (after, .ok program) →
      ∀ stmt, .stmt stmt ∈ program.nodes → stmt.branches) ∧
    (∀ name value, machine.scopes.contains scope name → (evaluate fuel scope value).Ends machine
      (fun answer after => ∃ changed, assign scope name answer after = .ok true changed)
      (fun _ _ => True)) ∧
    ∀ name value mark, evaluate (fuel + 1) scope (.assign name value mark) =
      assignFound fuel scope name value mark := by
  refine ⟨fun expr => ?_, fun stmt hbranches => ?_, fun _ _ _ _ hcompile stmt hstmt =>
    Session.compile_branches hcompile hstmt, fun name value h => assign_of_contains h value,
    evaluate_assign fuel scope⟩
  · exact Task.keeps fuel (.evaluate scope expr) machine fun _ _ hopens => hopens.elim
  · refine Task.keeps fuel (.execute scope stmt) machine fun id name hopens => ?_
    rw [← stmt.opens_of_branches hbranches]
    exact hopens

def branching : Program := .read "let x = 1 if x == 2 { let y = 3 } else { clock = x }"

/-- Only `x` stays behind, and `clock` can be assigned to. -/
theorem branching_keeps :
    let machine := Machine.new .unbounded fun _ => 0
    (∀ stmt ∈ branching.statements, (execute 9 Machine.globals stmt).Ends machine
      (fun _ after => machine.scopes.Keeps Machine.globals stmt.declares after.scopes)
      (fun _ after => machine.scopes.Keeps Machine.globals stmt.declares after.scopes)) ∧
    branching.statements.map Stmt.declares = [["x"], []] ∧
    ∀ value, (evaluate 9 Machine.globals value).Ends machine
      (fun answer after => ∃ changed,
        assign Machine.globals "clock" answer after = .ok true changed) (fun _ _ => True) := by
  intro machine
  obtain ⟨_, hstmt, _, hassign, _⟩ := no_scope_leaks 9 Machine.globals machine
  have hbranches : ∀ stmt ∈ branching.statements, stmt.branches := by decide +kernel
  have hclock : machine.scopes.contains Machine.globals "clock" := by
    rw [Scopes.contains, Scopes.resolve_of_binds (by decide)]
    rfl
  exact ⟨fun stmt hmem => hstmt stmt (hbranches stmt hmem), by decide +kernel,
    fun value => hassign "clock" value hclock⟩

end Run

end Scriptlet
