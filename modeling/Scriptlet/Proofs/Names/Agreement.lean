import Scriptlet.Proofs.Names.Script

/-! What a session knows and what it has bound. The checker takes over all names of a line
before the line is run; a line that stops early leaves some of them unbound. These are all the
names in which the two can differ. -/

namespace Scriptlet

namespace Run

/-- The statements that are not executed to their ends, from the first one on. -/
def pending : Nat → ScopeId → List Stmt → Machine → List Stmt
  | 0, _, stmts, _ => stmts
  | _ + 1, _, [], _ => []
  | fuel + 1, scope, stmt :: rest, machine =>
      match execute fuel scope stmt machine with
      | .ok (.normal _) after => pending fuel scope rest after
      | _ => stmt :: rest

theorem pending_suffix (fuel : Nat) (scope : ScopeId) (stmts : List Stmt) (machine : Machine) :
    pending fuel scope stmts machine <:+ stmts := by
  induction fuel generalizing stmts machine with
  | zero => exact List.suffix_refl _
  | succ fuel ih =>
      cases stmts with
      | nil => exact List.suffix_refl _
      | cons stmt rest =>
          unfold pending
          split
          · exact (ih rest _).trans (List.suffix_cons stmt rest)
          · exact List.suffix_refl _

def Accounted (fuel : Nat) (scope : ScopeId) (stmts : List Stmt) (machine : Machine)
    (after : Scopes) : Prop :=
  ∀ name ∈ stmts.flatMap Stmt.declares, after.binds scope name ∨
    name ∈ (pending fuel scope stmts machine).flatMap Stmt.declares

theorem accounted_behind {fuel : Nat} {scope : ScopeId} {stmt : Stmt} {rest : List Stmt}
    {machine middle : Machine} {after : Scopes} {value : Value}
    (hrun : execute fuel scope stmt machine = .ok (.normal value) middle)
    (hstmt : ∀ name ∈ stmt.declares, middle.scopes.binds scope name)
    (hbinds : ∀ name, middle.scopes.binds scope name → after.binds scope name)
    (hrest : Accounted fuel scope rest middle after) :
    Accounted (fuel + 1) scope (stmt :: rest) machine after := by
  intro name hname
  simp only [pending, hrun]
  rcases List.mem_append.mp hname with hname | hname
  · exact .inl (hbinds name (hstmt name hname))
  · exact hrest name hname

theorem accounted (fuel : Nat) {scope : ScopeId} (stmts : List Stmt) (last : Value)
    {machine : Machine} (hscope : scope < machine.scopes.size) :
    (executeAll fuel scope last stmts).Ends machine
      (fun _ after => Accounted fuel scope stmts machine after.scopes)
      (fun _ after => Accounted fuel scope stmts machine after.scopes) := by
  induction fuel generalizing stmts last machine with
  | zero =>
      rw [executeAll]
      exact fun _ hname => .inr hname
  | succ fuel ih =>
      cases stmts with
      | nil =>
          rw [executeAll]
          exact fun _ hname => .inr hname
      | cons stmt rest =>
          have hstmt := Task.frame fuel (.execute scope stmt) machine
          rw [executeAll, ends_bind]
          refine ends_of_results (fun flow middle hrun => ?_) fun reason middle hrun => ?_
          · obtain ⟨hextends, hdeclared⟩ := hstmt.of_ok hrun
            cases flow with
            | returned value =>
                intro name hname
                simp only [pending, hrun]
                exact .inr hname
            | normal value =>
                have hlt := Nat.lt_of_lt_of_le hscope hextends.size_le
                have hrest := Task.frame fuel (.executeAll scope value rest) middle
                have hboth := (ih rest value hlt).and hrest
                refine hboth.mono (fun _ after h => ?_) fun _ after h => ?_
                · exact accounted_behind hrun (hdeclared hscope) (h.2.1.binds scope) h.1
                · exact accounted_behind hrun (hdeclared hscope) (h.2.binds scope) h.1
          · intro name hname
            simp only [pending, hrun]
            exact .inr hname

end Run

theorem StmtsTyped.scopes_afterAll {stmts : List Stmt} {context : Context}
    (h : StmtsTyped context stmts) {checker : Checker} {level : Bindings Ty}
    {levels : List (Bindings Ty)} (hscopes : checker.scopes = level :: levels) :
    ∃ level', (checker.afterAll stmts).scopes = level' :: levels ∧
      ∀ name, level'.has name ↔ name ∈ stmts.flatMap Stmt.declares ∨ level.has name := by
  induction stmts generalizing context checker level with
  | nil => exact ⟨level, hscopes, by simp⟩
  | cons stmt rest ih =>
      cases h with
      | cons hstmt hrest =>
          obtain ⟨middle, hmiddle, hhas⟩ := hstmt.scopes_after hscopes
          obtain ⟨level', hlevel', hhas'⟩ := ih hrest hmiddle
          refine ⟨level', hlevel', fun name => ?_⟩
          rw [hhas', hhas, List.flatMap_cons, List.mem_append, or_left_comm, or_assoc]

theorem StmtsTyped.opens_eq {stmts : List Stmt} {context : Context}
    (h : StmtsTyped context stmts) :
    stmts.flatMap Stmt.opens = stmts.flatMap Stmt.declares := by
  induction stmts generalizing context with
  | nil => rfl
  | cons stmt rest ih =>
      cases h with
      | cons hstmt hrest => rw [List.flatMap_cons, List.flatMap_cons, hstmt.opens_eq, ih hrest]

namespace Session

def knows (session : Session) (name : String) : Bool :=
  session.checker.any fun checker => checker.scopes.getLast?.any (·.has name)

def isBound (session : Session) (name : String) : Bool := (session.machine.global? name).isSome

def evalAll (session : Session) (lines : List (Nat × String)) : Session :=
  lines.foldl (fun session line => (session.eval line.1 line.2).1) session

/-- The names of a line that the checker takes over although their statements are not executed
to their ends. -/
def skipped (session : Session) (fuel : Nat) (source : String) : List String :=
  match session.compile source with
  | (_, .error _) => []
  | (session, .ok program) =>
      (Run.pending fuel Machine.globals program.statements session.machine).flatMap Stmt.declares

def skippedIn (session : Session) : List (Nat × String) → List String
  | [] => []
  | line :: rest =>
      session.skipped line.1 line.2 ++ skippedIn (session.eval line.1 line.2).1 rest

/-- Between lines the checker is at the top, and knows what is bound or was skipped. -/
structure Agrees (session : Session) (skipped : List String) (level : Bindings Ty) : Prop where
  checker : session.checker = some ⟨[level], []⟩
  ready : session.machine.scopes.Ready (· ∈ skipped) (fun _ => True) ⟨[level], []⟩
  known : ∀ name, level.has name ↔ session.isBound name ∨ name ∈ skipped

variable {session : Session} {skipped : List String} {level : Bindings Ty}

theorem Agrees.knows_iff (h : session.Agrees skipped level) (name : String) :
    session.knows name ↔ session.isBound name ∨ name ∈ skipped := by
  simp [knows, h.checker, h.known]

section Line

variable {after : Session} {program : Program} (fuel : Nat)

theorem Agrees.known_run (h : session.Agrees skipped level)
    (typed : StmtsTyped (Checker.mk [level] []).context program.statements)
    (hscopes : after.machine.scopes = session.machine.scopes) (name : String) :
    name ∈ program.statements.flatMap Stmt.declares ∨ level.has name ↔
      (after.run fuel program).1.isBound name ∨
        name ∈ skipped ++ (Run.pending fuel Machine.globals program.statements
          after.machine).flatMap Stmt.declares := by
  have hready : after.machine.scopes.Ready (· ∈ skipped) (fun _ => True) ⟨[level], []⟩ :=
    hscopes ▸ h.ready
  obtain ⟨_, hextends, _⟩ := run_ready hready typed (fun _ _ => trivial) fuel
  have hends := Run.accounted fuel program.statements .nothing hready.top.lt_size
  obtain ⟨haccounted, _⟩ := run_ends
    (Run.Accounted fuel Machine.globals program.statements after.machine) (fun _ _ => True)
    (hends.mono (fun _ _ h => h) fun _ _ h => ⟨h, trivial⟩)
  rw [h.known, List.mem_append]
  constructor
  · rintro (hname | hname | hname)
    · exact (haccounted name hname).imp_right .inr
    · exact .inl (hextends.binds _ _ (hscopes ▸ hname))
    · exact .inr (.inl hname)
  · rintro (hname | hname | hname)
    · rcases hextends.opened _ hready.top.lt_size name hname with hbefore | hopened
      · exact .inr (.inl (hscopes ▸ hbefore : session.machine.scopes.binds Machine.globals name))
      · exact .inl (typed.opens_eq ▸ hopened.2)
    · exact .inr (.inr hname)
    · obtain ⟨stmt, hstmt, hdeclared⟩ := List.mem_flatMap.mp hname
      have hsuffix := Run.pending_suffix fuel Machine.globals program.statements after.machine
      exact .inl (List.mem_flatMap.mpr ⟨stmt, hsuffix.subset hstmt, hdeclared⟩)

theorem Agrees.run (h : session.Agrees skipped level)
    (typed : StmtsTyped (Checker.mk [level] []).context program.statements)
    (hscopes : after.machine.scopes = session.machine.scopes)
    (hchecker : after.checker = some (Checker.afterAll ⟨[level], []⟩ program.statements)) :
    ∃ level', (after.run fuel program).1.Agrees
      (skipped ++ (Run.pending fuel Machine.globals program.statements after.machine).flatMap
        Stmt.declares) level' := by
  have hready : after.machine.scopes.Ready (· ∈ skipped) (fun _ => True) ⟨[level], []⟩ :=
    hscopes ▸ h.ready
  obtain ⟨hkept, hextends, _⟩ := run_ready hready typed (fun _ _ => trivial) fuel
  have hlevel : (Checker.mk [level] []).scopes = [level] := rfl
  obtain ⟨level', hlevel', hhas⟩ := typed.scopes_afterAll hlevel
  have hknown := fun name => (hhas name).trans (h.known_run fuel typed hscopes name)
  have hreturns := Checker.returns_afterAll program.statements ⟨[level], []⟩
  have hchecked : Checker.afterAll ⟨[level], []⟩ program.statements = ⟨[level'], []⟩ := by
    rw [← hlevel']
    exact congrArg (Checker.mk _) hreturns
  have htop := hready.top.extend_top hextends
  refine ⟨level', ?_, ⟨hkept.mono fun _ hname => List.mem_append_left _ hname, ?_⟩, hknown⟩
  · rw [checker_run, hchecker, hchecked]
  · exact ⟨htop.lt_size, htop.path, rfl, .top fun name hname => (hknown name).mp hname, .outer⟩

end Line

/-- A line leaves checker and machine in agreement, but for what it skips, and it fails to find
only names that an earlier line has skipped. -/
theorem Agrees.eval (h : session.Agrees skipped level) (fuel : Nat) (source : String) :
    (∃ level',
      (session.eval fuel source).1.Agrees (skipped ++ session.skipped fuel source) level') ∧
      ∀ error, (session.eval fuel source).2 = .error (.runtime error) →
        (Stop.fault error).Excused (· ∈ skipped) (session.eval fuel source).1.machine.scopes := by
  rcases hcompile : session.compile source with ⟨after, error | program⟩
  · obtain ⟨hchecker, hscopes⟩ := compile_error hcompile
    simp only [Session.eval, Session.skipped, hcompile, List.append_nil]
    refine ⟨⟨level, hchecker.trans h.checker, hscopes ▸ h.ready, fun name => ?_⟩, fun _ => nofun⟩
    have hsame : after.isBound name = session.isBound name := by
      simp only [isBound, Machine.global?, hscopes]
    rw [hsame, h.known]
  · obtain ⟨typed, hchecker, hscopes⟩ := compile_typed hcompile h.checker
    have hready : after.machine.scopes.Ready (· ∈ skipped) (fun _ => True) ⟨[level], []⟩ :=
      hscopes ▸ h.ready
    simp only [Session.eval, Session.skipped, hcompile]
    exact ⟨h.run fuel typed hscopes hchecker,
      (run_ready hready typed (fun _ _ => trivial) fuel).2.2⟩

theorem Agrees.evalAll (h : session.Agrees skipped level) (lines : List (Nat × String)) :
    ∃ level', (session.evalAll lines).Agrees (skipped ++ session.skippedIn lines) level' := by
  induction lines generalizing session skipped level with
  | nil =>
      rw [skippedIn, List.append_nil]
      exact ⟨level, h⟩
  | cons line rest ih =>
      obtain ⟨⟨level', hline⟩, _⟩ := h.eval line.1 line.2
      rw [skippedIn, ← List.append_assoc]
      exact ih hline

theorem agrees_new (output : Output) (clock : Nat → Int64) (unnamed : Nat) :
    Agrees { Session.new true output clock with unnamed := unnamed } []
      (Builtin.all.map fun builtin => (builtin.name, builtin.signature)) := by
  refine ⟨rfl, Machine.ready_new output clock _ _, fun name => ?_⟩
  rw [Machine.has_new output clock]
  simp [isBound, Machine.global?, Scopes.binds, Session.new]

/-- After any lines that a session was given, whether they were rejected, failed, returned or
ran to their ends, the checker knows just the names that are bound and those that were skipped;
and a line fails for want of a name only if the name was skipped and still is not bound. -/
theorem knows_iff_isBound_or_skipped (output : Output) (clock : Nat → Int64) (unnamed : Nat)
    (lines : List (Nat × String)) :
    let start := { Session.new true output clock with unnamed := unnamed }
    let session := start.evalAll lines
    (∀ name, session.knows name ↔ session.isBound name ∨ name ∈ start.skippedIn lines) ∧
      ∀ fuel source error name, (session.eval fuel source).2 = .error (.runtime error) →
        error.fault = .undefined name ∨ error.fault = .undeclaredTarget name →
          name ∈ start.skippedIn lines ∧ ¬(session.eval fuel source).1.isBound name := by
  obtain ⟨level, hagrees⟩ := (agrees_new output clock unnamed).evalAll lines
  refine ⟨hagrees.knows_iff, fun fuel source error name heq hfault => ?_⟩
  exact (hagrees.eval fuel source).2 error heq error name rfl hfault

theorem skipped_name_is_missing :
    let start := { Session.new true .unbounded (fun _ => 0) with unnamed := 0 }
    let session := start.evalAll [(40, "1 / 0 let x = 5")]
    "x" ∈ start.skippedIn [(40, "1 / 0 let x = 5")] ∧ ¬(session.eval 40 "x").1.isBound "x" :=
  (knows_iff_isBound_or_skipped .unbounded (fun _ => 0) 0 [(40, "1 / 0 let x = 5")]).2 40 "x"
    ⟨.undefined "x", ⟨0, 1, 1⟩⟩ "x" (by decide +kernel) (.inl rfl)

/-- The checker can know a name that is not bound, and accept a line that then fails to find it. -/
theorem knows_unbound_name :
    let session := (Session.new true .unbounded fun _ => 0).evalAll [(40, "1 / 0 let x = 5")]
    session.knows "x" ∧ ¬session.isBound "x" ∧
      (session.eval 40 "x").2 = .error (.runtime ⟨.undefined "x", ⟨0, 1, 1⟩⟩) := by
  decide +kernel

end Session

end Scriptlet
