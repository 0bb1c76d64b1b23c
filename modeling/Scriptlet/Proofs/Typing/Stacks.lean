import Scriptlet.Proofs.Tree.Parsed
import Scriptlet.Proofs.Typing.View

/-! What a check leaves of the checker. Whatever it opens it closes again, on every way out: behind
an expression the checker is as before, and statements change nothing but the names that they
declare in the innermost scope. -/

namespace Scriptlet

/-- The names that a statement declares in the scope in which it stands. An `else` opens no scope,
so what stands directly behind one counts as well; in what is read that is a block or a
condition. -/
def Stmt.ownNames : Stmt → List String
  | .binding name .. => [name]
  | .function decl => [decl.name]
  | .conditional _ _ (some otherwise) _ => otherwise.ownNames
  | _ => []

/-- The names that may be declared already when the check of the statement fails. A function is
declared in front of its body, a binding behind its value. -/
def Stmt.earlyNames : Stmt → List String
  | .function decl => [decl.name]
  | .conditional _ _ (some otherwise) _ => otherwise.earlyNames
  | _ => []

namespace Checker

def innermost? (checker : Checker) (name : String) : Option Ty :=
  checker.scopes.head?.bind (·.find? name)

/-- Both stacks are as before, but that the innermost scope now has types for these names. -/
structure Declares (names : List String) (before after : Checker) : Prop where
  returns : after.returns = before.returns
  outer : after.scopes.tail = before.scopes.tail
  depth : after.scopes.length = before.scopes.length
  declared : before.scopes ≠ [] → ∀ name ∈ names, (after.innermost? name).isSome
  others : ∀ name ∉ names, after.innermost? name = before.innermost? name

namespace Declares

variable {names more : List String} {before middle after : Checker}

theorem refl (checker : Checker) : Declares [] checker checker :=
  ⟨rfl, rfl, rfl, nofun, fun _ _ => rfl⟩

theorem trans (h : Declares names before middle) (h' : Declares more middle after) :
    Declares (names ++ more) before after := by
  refine ⟨h'.returns.trans h.returns, h'.outer.trans h.outer, h'.depth.trans h.depth,
    fun hopen name hname => ?_, fun name hname => ?_⟩
  · have hmiddle : middle.scopes ≠ [] := by
      rw [← List.length_pos_iff, h.depth]
      exact List.length_pos_iff.mpr hopen
    by_cases hmore : name ∈ more
    · exact h'.declared hmiddle name hmore
    · rw [h'.others name hmore]
      exact h.declared hopen name ((List.mem_append.mp hname).resolve_right hmore)
  · rw [List.mem_append, not_or] at hname
    rw [h'.others name hname.2, h.others name hname.1]

theorem declare (checker : Checker) (name : String) (ty : Ty) :
    Declares [name] checker (checker.declare name ty) := by
  obtain ⟨_ | ⟨scope, outer⟩, returns⟩ := checker
  · exact ⟨rfl, rfl, rfl, fun hopen => absurd rfl hopen, fun _ _ => rfl⟩
  · refine ⟨rfl, rfl, rfl, fun _ key hkey => ?_, fun key hkey => ?_⟩
    · obtain rfl := List.mem_singleton.mp hkey
      simp [Checker.declare, innermost?]
    · have hne : name ≠ key := fun heq => hkey (heq ▸ List.mem_singleton_self _)
      simp [Checker.declare, innermost?, Bindings.find?_insert_of_ne _ _ hne]

theorem closeScope {scope : Bindings Ty} (h : Declares names (before.openScope scope) after) :
    after.closeScope = before := by
  simp only [Checker.closeScope, h.outer, h.returns]
  rfl

theorem leave {scope : Bindings Ty} {result : Ty}
    (h : Declares names ((before.openScope scope).enterFunction result) after) :
    after.leaveFunction.closeScope = before := by
  simp only [Checker.closeScope, Checker.leaveFunction, h.outer, h.returns]
  rfl

end Declares

/-- What a check has declared when it ends: all of the names on success, and on failure no others
than the early ones. -/
def DeclaresUpTo {ν : Type} (own early : List String) (before : Checker)
    (checked : Checked ν Unit) : Prop :=
  ∃ names, before.Declares names checked.checker ∧
    match checked.result with
    | .ok _ => names = own
    | .error _ => names ⊆ early

theorem DeclaresUpTo.nothing {ν : Type} {early : List String} {before : Checker}
    {checked : Checked ν Unit} (h : checked.checker = before) :
    DeclaresUpTo [] early before checked := by
  refine ⟨[], h ▸ .refl before, ?_⟩
  split
  · rfl
  · exact List.nil_subset _

end Checker

@[simp] theorem Checked.checker_settle {ν : Type} (build : Mark → ν) (mark : Mark)
    (checker : Checker) (result : Except TypeError Ty) :
    (settle build mark checker result).checker = checker := by
  cases result <;> rfl

theorem checkFunction_rejects {checker : Checker} {visible : NameScope} {decl : FnDecl}
    {e : TypeError} (h : paramTys decl.params = .error e) :
    checkFunction checker visible decl = ⟨decl, checker, .error e⟩ := by
  cases decl
  simp only [checkFunction, h]

mutual

theorem checkExpr_checker : (expr : Expr) → (checker : Checker) →
    (checkExpr checker expr).checker = checker
  | .literal .., _ | .variable .., _ => Checked.checker_settle ..
  | .assign name value _, checker => by
      simp only [checkExpr]
      cases checker.lookup name with
      | none => rfl
      | some target => simp only [Checked.checker_settle, checkExpr_checker value]
  | .group inner _, checker => by
      simp only [checkExpr, Checked.checker_settle, checkExpr_checker inner]
  | .unary _ operand _, checker => by
      simp only [checkExpr, Checked.checker_settle, checkExpr_checker operand]
  | .binary _ left right _, checker => by
      simp only [checkExpr, checkExpr_checker left]
      cases (checkExpr checker left).result with
      | error e => rfl
      | ok ty => simp only [Checked.checker_settle, checkExpr_checker right]
  | .call callee args _, checker => by
      simp only [checkExpr, checkExpr_checker callee]
      cases (checkExpr checker callee).result with
      | error e => rfl
      | ok ty =>
          cases ty with
          | function params result =>
              dsimp only
              split
              · simp only [Checked.checker_settle, checkArgs_checker args]
              · rfl
          | _ => rfl
  | .function decl _, checker => by
      simp only [checkExpr, Checked.checker_settle, checkFunction_checker decl]
      cases paramTys decl.params <;> rfl

theorem checkArgs_checker : (args : List Expr) → (checker : Checker) → (number : Nat) →
    (params : List Ty) → (checkArgs checker number params args).checker = checker
  | [], _, _, _ => rfl
  | _ :: _, _, _, [] => rfl
  | arg :: rest, checker, number, param :: params => by
      simp only [checkArgs, checkExpr_checker arg]
      cases (checkExpr checker arg).result with
      | error e => rfl
      | ok ty =>
          dsimp only
          split
          · exact checkArgs_checker rest checker _ params
          · rfl

theorem checkFunction_checker : (decl : FnDecl) → (checker : Checker) → (visible : NameScope) →
    (checkFunction checker visible decl).checker =
      match paramTys decl.params with
      | .error _ => checker
      | .ok params => checker.aroundBody visible decl.name
          (decl.mark.settle (.function params decl.resultTy)).2
  | ⟨name, anonymous, params, result, body, mark⟩, checker, visible => by
      simp only [checkFunction]
      cases paramTys params with
      | error e => rfl
      | ok tys =>
          obtain ⟨names, hbody⟩ := checkStmts_kept body _
          exact hbody.leave

theorem checkStmt_declares : (stmt : Stmt) → (checker : Checker) →
    checker.DeclaresUpTo stmt.ownNames stmt.earlyNames (checkStmt checker stmt)
  | .expression expr, checker => .nothing (checkExpr_checker expr checker)
  | .binding name declared none mark, checker => by
      simp only [checkStmt]
      cases bindingTy name mark.span (declared.map TypeExpr.ty) none with
      | error e => exact ⟨[], .refl checker, List.nil_subset _⟩
      | ok ty => exact ⟨[name], .declare checker name _, rfl⟩
  | .binding name declared (some init) mark, checker => by
      simp only [checkStmt, checkExpr_checker init]
      cases (checkExpr checker init).result >>= fun ty =>
          bindingTy name mark.span (declared.map TypeExpr.ty) (some ty) with
      | error e => exact ⟨[], .refl checker, List.nil_subset _⟩
      | ok ty => exact ⟨[name], .declare checker name _, rfl⟩
  | .block block, checker => .nothing (checkBlock_checker block checker)
  | .conditional condition thenBlock none span, checker => by
      refine .nothing ?_
      simp only [checkStmt, checkExpr_checker condition, checkBlock_checker thenBlock]
      split <;> rfl
  | .conditional condition thenBlock (some otherwise) span, checker => by
      simp only [checkStmt, checkExpr_checker condition, checkBlock_checker thenBlock]
      cases (checkExpr checker condition).result with
      | error e => exact ⟨[], .refl checker, List.nil_subset _⟩
      | ok ty =>
          dsimp only
          cases (checkBlock checker thenBlock).result with
          | error e => exact ⟨[], .refl checker, List.nil_subset _⟩
          | ok => exact checkStmt_declares otherwise checker
  | .loop condition body span, checker => by
      refine .nothing ?_
      simp only [checkStmt, checkExpr_checker condition, checkBlock_checker body]
      split <;> rfl
  | .function decl, checker => by
      have hdecl : (checkStmt checker (.function decl)).checker = _ :=
        checkFunction_checker decl checker .around
      cases hparams : paramTys decl.params with
      | error e =>
          have hresult : (checkStmt checker (.function decl)).result = .error e := by
            simp only [checkStmt, checkFunction_rejects hparams, Except.map]
          exact ⟨[], by rw [hdecl, hparams]; exact .refl checker,
            by rw [hresult]; exact List.nil_subset _⟩
      | ok params =>
          refine ⟨[decl.name], by rw [hdecl, hparams]; exact .declare checker decl.name _, ?_⟩
          cases (checkStmt checker (.function decl)).result with
          | error e => exact List.Subset.refl _
          | ok => rfl
  | .ret none span, checker => .nothing rfl
  | .ret (some value) span, checker => .nothing (checkExpr_checker value checker)

theorem checkStmts_kept : (stmts : List Stmt) → (checker : Checker) →
    ∃ names, checker.Declares names (checkStmts checker stmts).checker
  | [], checker => ⟨[], .refl checker⟩
  | stmt :: rest, checker => by
      obtain ⟨names, hstmt, _⟩ := checkStmt_declares stmt checker
      simp only [checkStmts]
      cases (checkStmt checker stmt).result with
      | error e => exact ⟨names, hstmt⟩
      | ok =>
          obtain ⟨more, hrest⟩ := checkStmts_kept rest (checkStmt checker stmt).checker
          exact ⟨names ++ more, hstmt.trans hrest⟩

theorem checkBlock_checker : (block : Block) → (checker : Checker) →
    (checkBlock checker block).checker = checker
  | ⟨statements, _⟩, checker => by
      obtain ⟨names, hbody⟩ := checkStmts_kept statements (checker.openScope [])
      exact hbody.closeScope

end

theorem checkStmts_declares (stmts : List Stmt) (checker : Checker) :
    match (checkStmts checker stmts).result with
    | .ok _ => checker.Declares (stmts.flatMap Stmt.ownNames) (checkStmts checker stmts).checker
    | .error e => ∃ done failing rest early, stmts = done ++ failing :: rest ∧
        (checkStmts checker done).result = .ok () ∧
        (checkStmt (checkStmts checker done).checker failing).result = .error e ∧
        early ⊆ failing.earlyNames ∧
        checker.Declares (done.flatMap Stmt.ownNames ++ early)
          (checkStmts checker stmts).checker := by
  induction stmts generalizing checker with
  | nil => exact .refl checker
  | cons stmt rest ih =>
      obtain ⟨names, hstmt, hnames⟩ := checkStmt_declares stmt checker
      simp only [checkStmts]
      cases hresult : (checkStmt checker stmt).result with
      | error e =>
          rw [hresult] at hnames
          exact ⟨[], stmt, rest, names, rfl, rfl, hresult, hnames, hstmt⟩
      | ok =>
          rw [hresult] at hnames
          subst hnames
          have hrest := ih (checkStmt checker stmt).checker
          dsimp only
          cases herror : (checkStmts (checkStmt checker stmt).checker rest).result with
          | ok =>
              rw [herror] at hrest
              exact hstmt.trans hrest
          | error e =>
              rw [herror] at hrest
              obtain ⟨done, failing, behind, early, rfl, hdone, hfails, hearly, hdeclares⟩ := hrest
              refine ⟨stmt :: done, failing, behind, early, rfl, ?_, ?_, hearly, ?_⟩
              · simp only [checkStmts, hresult, hdone]
              · simp only [checkStmts, hresult, hfails]
              · rw [List.flatMap_cons, List.append_assoc]
                exact hstmt.trans hdeclares

/-- A check of an expression leaves the checker as it was, whether it succeeds or fails. Behind
statements both stacks are as before but for the innermost scope, and there only the names have
changed that are declared by the statements in the list itself. When the check of one of them
fails, these are the names in front of it and, at most, that of a function that it declares. -/
theorem check_restores (checker : Checker) :
    (∀ expr, (checkExpr checker expr).checker = checker) ∧
      ∀ stmts,
        ((checkStmts checker stmts).result = .ok () →
          checker.Declares (stmts.flatMap Stmt.ownNames) (checkStmts checker stmts).checker) ∧
        ∀ e, (checkStmts checker stmts).result = .error e →
          ∃ done failing rest early, stmts = done ++ failing :: rest ∧
            (checkStmts checker done).result = .ok () ∧
            (checkStmt (checkStmts checker done).checker failing).result = .error e ∧
            early ⊆ failing.earlyNames ∧
            checker.Declares (done.flatMap Stmt.ownNames ++ early)
              (checkStmts checker stmts).checker := by
  refine ⟨fun expr => checkExpr_checker expr checker, fun stmts => ?_⟩
  have hdeclares := checkStmts_declares stmts checker
  refine ⟨fun hok => by rwa [hok] at hdeclares, fun e herror => by rwa [herror] at hdeclares⟩

instance decidableFails {ε α : Type} [DecidableEq ε] (result : Except ε α) (error : ε) :
    Decidable (result = .error error) :=
  match result with
  | .ok _ => isFalse nofun
  | .error other => decidable_of_iff (other = error) (by simp)

/-- A function that cannot be accepted because of another one in its body. -/
def unfinished : Program :=
  .read <| "let a = 1 fn f(x: int) -> int \x7b " ++
    "let g = fn(y: int) -> int \x7b return missing \x7d \x7d let b = 2"

/-- The function is declared all the same, but nothing from its body or behind it. -/
theorem unfinished_restores :
    let checked := checkStmts .new unfinished.statements
    let error : TypeError := ⟨.undefined "missing", ⟨67, 7, 1⟩⟩
    checked.result = .error error ∧
      ["a", "f", "x", "g", "y", "b"].map checked.checker.innermost? =
        [some .int, some (.function [.int] .int), none, none, none, none] ∧
      ∃ done failing rest early, unfinished.statements = done ++ failing :: rest ∧
        (checkStmts .new done).result = .ok () ∧
        (checkStmt (checkStmts .new done).checker failing).result = .error error ∧
        early ⊆ failing.earlyNames ∧
        Checker.new.Declares (done.flatMap Stmt.ownNames ++ early) checked.checker := by
  intro checked error
  have herror : checked.result = .error error := by decide +kernel
  exact ⟨herror, by decide +kernel, ((check_restores .new).2 unfinished.statements).2 error herror⟩

end Scriptlet
