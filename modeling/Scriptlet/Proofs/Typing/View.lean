import Scriptlet.Proofs.Typing.Rules

/-! What a checker knows, as a context. Its stacks change on the way through a program, but what
they say is at every node what the rules say there. -/

namespace Scriptlet

section Operators

theorem Ty.widen?_eq_some {left right ty : Ty} :
    left.widen? right = some ty ↔ left.Widens right ty := by
  constructor
  · intro h
    unfold widen? at h
    split at h <;> simp only [Option.some.injEq, reduceCtorEq] at h <;> subst h <;> constructor
  · intro h
    cases h <;> rfl

theorem UnaryOp.resultTy?_eq_some {op : UnaryOp} {operand ty : Ty} :
    op.resultTy? operand = some ty ↔ op.Makes operand ty := by
  constructor
  · intro h
    cases op with
    | negate =>
        obtain ⟨hnumeric, rfl⟩ : operand.isNumeric ∧ operand = ty := by
          simpa [resultTy?] using h
        cases operand <;> first | exact .int | exact .float | exact absurd hnumeric nofun
    | not =>
        obtain rfl := Option.some.inj h
        exact .not
  · intro h
    cases h <;> rfl

theorem BinaryOp.resultTy?_eq_some {op : BinaryOp} {left right ty : Ty} :
    op.resultTy? left right = some ty ↔ op.Makes left right ty := by
  constructor
  · intro h
    cases op with
    | add =>
        simp only [resultTy?] at h
        split at h
        · rename_i hstrings
          obtain ⟨rfl, rfl⟩ := hstrings
          obtain rfl := Option.some.inj h
          exact .concat
        · exact .arithmetic (by simp) (Ty.widen?_eq_some.mp h)
    | subtract | multiply | divide => exact .arithmetic (by simp) (Ty.widen?_eq_some.mp h)
    | floorDivide =>
        obtain ⟨wide, hwiden, rfl⟩ := Option.map_eq_some_iff.mp h
        exact .floor (Ty.widen?_eq_some.mp hwiden)
    | equal | notEqual =>
        simp only [resultTy?] at h
        split at h
        · rename_i hoperands
          obtain rfl := Option.some.inj h
          obtain hwiden | rfl := hoperands
          · obtain ⟨wide, hwiden⟩ := Option.isSome_iff_exists.mp hwiden
            exact .compare (by simp) (Ty.widen?_eq_some.mp hwiden)
          · exact .same (by simp)
        · exact absurd h nofun
    | less | lessEqual | greater | greaterEqual =>
        obtain ⟨wide, hwiden, rfl⟩ := Option.map_eq_some_iff.mp h
        exact .compare (by simp) (Ty.widen?_eq_some.mp hwiden)
  · intro h
    cases h with
    | concat => rfl
    | arithmetic hop widens =>
        simp only [List.mem_cons, List.not_mem_nil, or_false] at hop
        rcases hop with rfl | rfl | rfl | rfl <;> cases widens <;> rfl
    | floor widens => cases widens <;> rfl
    | same hop =>
        simp only [List.mem_cons, List.not_mem_nil, or_false] at hop
        rcases hop with rfl | rfl <;> exact if_pos (.inr rfl)
    | compare hop widens =>
        simp only [List.mem_cons, List.not_mem_nil, or_false] at hop
        rcases hop with rfl | rfl | rfl | rfl | rfl | rfl <;> cases widens <;> rfl

theorem UnaryOp.resultTy?_eq_none {op : UnaryOp} {operand : Ty} :
    op.resultTy? operand = none ↔ ∀ ty, ¬op.Makes operand ty := by
  simp only [Option.eq_none_iff_forall_ne_some, ne_eq, resultTy?_eq_some]

theorem BinaryOp.resultTy?_eq_none {op : BinaryOp} {left right : Ty} :
    op.resultTy? left right = none ↔ ∀ ty, ¬op.Makes left right ty := by
  simp only [Option.eq_none_iff_forall_ne_some, ne_eq, resultTy?_eq_some]

end Operators

section Params

theorem paramTys_of_untyped {param : Param} (untyped : param.ty = .nothing) (rest : List Param) :
    paramTys (param :: rest) = .error ⟨.untypedParameter param.name, param.span⟩ := by
  cases hdeclared : param.declared with
  | none => simp only [paramTys, hdeclared, Option.map_none]
  | some written =>
      rw [Param.ty, hdeclared, Option.map_some, Option.getD_some] at untyped
      simp only [paramTys, hdeclared, Option.map_some, untyped]

theorem paramTys_of_typed {param : Param} (typed : param.ty ≠ .nothing) (rest : List Param) :
    paramTys (param :: rest) = (paramTys rest).map (param.ty :: ·) := by
  cases hdeclared : param.declared with
  | none => exact absurd (by rw [Param.ty, hdeclared]; rfl) typed
  | some written =>
      have hty : param.ty = written.ty := by rw [Param.ty, hdeclared]; rfl
      rw [hty] at typed ⊢
      simp only [paramTys, hdeclared, Option.map_some]
      cases paramTys rest <;> rfl

theorem paramTys_of_written {params : List Param}
    (written : ∀ param ∈ params, param.ty ≠ .nothing) :
    paramTys params = .ok (params.map Param.ty) := by
  induction params with
  | nil => rfl
  | cons param rest ih =>
      rw [List.forall_mem_cons] at written
      rw [paramTys_of_typed written.1, ih written.2]
      rfl

theorem paramTys_of_split {accepted : List Param}
    (written : ∀ param ∈ accepted, param.ty ≠ .nothing) {param : Param}
    (untyped : param.ty = .nothing) (others : List Param) :
    paramTys (accepted ++ param :: others) =
      .error ⟨.untypedParameter param.name, param.span⟩ := by
  induction accepted with
  | nil => exact paramTys_of_untyped untyped others
  | cons first rest ih =>
      rw [List.forall_mem_cons] at written
      rw [List.cons_append, paramTys_of_typed written.1, ih written.2]
      rfl

end Params

namespace Checker

def after (checker : Checker) (stmt : Stmt) : Checker :=
  match stmt.declared? with
  | some (name, ty) => checker.declare name ty
  | none => checker

def afterAll (checker : Checker) (stmts : List Stmt) : Checker := stmts.foldl after checker

def aroundBody (checker : Checker) (visible : NameScope) (name : String) (ty : Ty) : Checker :=
  if visible = .around then checker.declare name ty else checker

def inBody (checker : Checker) (visible : NameScope) (decl : FnDecl) (params : List Ty) :
    Checker :=
  let ty := .function params decl.resultTy
  ((checker.aroundBody visible decl.name ty).openScope
    (bodyScope visible decl ty params)).enterFunction decl.resultTy

@[simp] theorem tail_scopes_declare (checker : Checker) (name : String) (ty : Ty) :
    (checker.declare name ty).scopes.tail = checker.scopes.tail := by
  obtain ⟨_ | ⟨scope, outer⟩, returns⟩ := checker <;> rfl

@[simp] theorem returns_declare (checker : Checker) (name : String) (ty : Ty) :
    (checker.declare name ty).returns = checker.returns := by
  obtain ⟨_ | ⟨scope, outer⟩, returns⟩ := checker <;> rfl

theorem after_of_isBranch {stmt : Stmt} (h : stmt.isBranch) (checker : Checker) :
    checker.after stmt = checker := by
  cases stmt <;> first | rfl | simp [Stmt.isBranch] at h

@[simp] theorem tail_scopes_after (checker : Checker) (stmt : Stmt) :
    (checker.after stmt).scopes.tail = checker.scopes.tail := by
  unfold after
  split <;> simp

@[simp] theorem returns_after (checker : Checker) (stmt : Stmt) :
    (checker.after stmt).returns = checker.returns := by
  unfold after
  split <;> simp

theorem tail_scopes_afterAll (stmts : List Stmt) (checker : Checker) :
    (checker.afterAll stmts).scopes.tail = checker.scopes.tail := by
  induction stmts generalizing checker with
  | nil => rfl
  | cons stmt rest ih => exact (ih (checker.after stmt)).trans (tail_scopes_after checker stmt)

theorem returns_afterAll (stmts : List Stmt) (checker : Checker) :
    (checker.afterAll stmts).returns = checker.returns := by
  induction stmts generalizing checker with
  | nil => rfl
  | cons stmt rest ih => exact (ih (checker.after stmt)).trans (returns_after checker stmt)

theorem closeScope_afterAll (checker : Checker) (scope : Bindings Ty) (stmts : List Stmt) :
    ((checker.openScope scope).afterAll stmts).closeScope = checker := by
  have hscopes := tail_scopes_afterAll stmts (checker.openScope scope)
  have hreturns := returns_afterAll stmts (checker.openScope scope)
  simp only [closeScope, hscopes, hreturns]
  rfl

theorem leave_afterAll (checker : Checker) (scope : Bindings Ty) (result : Ty)
    (stmts : List Stmt) :
    (((checker.openScope scope).enterFunction result).afterAll stmts).leaveFunction.closeScope =
      checker := by
  have hscopes := tail_scopes_afterAll stmts ((checker.openScope scope).enterFunction result)
  have hreturns := returns_afterAll stmts ((checker.openScope scope).enterFunction result)
  simp only [closeScope, leaveFunction, hscopes, hreturns]
  rfl

/-- What the scopes and the functions around say. -/
def context (checker : Checker) : Context :=
  ⟨checker.lookup, checker.returns.head?, !checker.scopes.isEmpty⟩

theorem lookup_eq_types {checker : Checker} {context : Context}
    (knows : checker.context = context) : checker.lookup = context.types :=
  congrArg Context.types knows

theorem lookup_declare {checker : Checker} (h : checker.scopes ≠ []) (name : String) (ty : Ty) :
    (checker.declare name ty).lookup = Function.update checker.lookup name (some ty) := by
  obtain ⟨_ | ⟨scope, outer⟩, returns⟩ := checker
  · exact absurd rfl h
  · funext other
    simp only [declare, lookup, List.findSome?_cons]
    by_cases hname : other = name
    · subst hname
      simp
    · rw [Bindings.find?_insert_of_ne scope ty (Ne.symm hname), Function.update_of_ne hname]
      rfl

@[simp] theorem context_declare (checker : Checker) (name : String) (ty : Ty) :
    (checker.declare name ty).context = checker.context.extend name ty := by
  by_cases h : checker.scopes = []
  · obtain ⟨scopes, returns⟩ := checker
    subst h
    rfl
  · have hopened : checker.context.opened := by simpa [context] using h
    rw [Context.extend, if_pos hopened, context, lookup_declare h, returns_declare]
    obtain ⟨_ | ⟨scope, outer⟩, returns⟩ := checker
    · exact absurd rfl h
    · rfl

@[simp] theorem context_after (checker : Checker) (stmt : Stmt) :
    (checker.after stmt).context = checker.context.after stmt := by
  unfold after Context.after
  cases stmt.declared? with
  | none => rfl
  | some entry => exact context_declare checker entry.1 entry.2

theorem context_afterAll (checker : Checker) (stmts : List Stmt) :
    (checker.afterAll stmts).context = checker.context.afterAll stmts := by
  induction stmts generalizing checker with
  | nil => rfl
  | cons stmt rest ih => exact (ih (checker.after stmt)).trans (by rw [context_after]; rfl)

@[simp] theorem context_openScope (checker : Checker) :
    (checker.openScope []).context = checker.context.inBlock := by
  have hlookup : (checker.openScope []).lookup = checker.lookup := rfl
  simp only [context, hlookup, Context.inBlock]
  rfl

@[simp] theorem context_enterFunction (checker : Checker) (result : Ty) :
    (checker.enterFunction result).context = { checker.context with result := some result } :=
  rfl

theorem context_params (checker : Checker) (params : List Param) (scope : Bindings Ty) :
    (checker.openScope ((params.zip (params.map Param.ty)).foldl
      (fun scope entry => scope.insert entry.1.name entry.2) scope)).context =
      (checker.openScope scope).context.withParams params := by
  induction params generalizing scope with
  | nil => rfl
  | cons param rest ih =>
      have hdeclare : (checker.openScope (scope.insert param.name param.ty)).context =
          (checker.openScope scope).context.extend param.name param.ty :=
        context_declare (checker.openScope scope) param.name param.ty
      simp only [List.map_cons, List.zip_cons_cons, List.foldl_cons, ih, hdeclare]
      rfl

theorem context_inBody (checker : Checker) (visible : NameScope) (decl : FnDecl) :
    (checker.inBody visible decl (decl.params.map Param.ty)).context =
      checker.context.inBody visible decl := by
  have hnamed : ((checker.aroundBody visible decl.name decl.ty).openScope
      (if visible = .inside ∧ !decl.anonymous then [(decl.name, decl.ty)] else [])).context =
        checker.context.withFunction decl visible := by
    cases visible with
    | around => simp [aroundBody, Context.withFunction]
    | inside =>
        cases hanonymous : decl.anonymous with
        | true => simp [aroundBody, Context.withFunction, hanonymous]
        | false =>
            have hown : (checker.openScope [(decl.name, decl.ty)]).context =
                (checker.openScope []).context.extend decl.name decl.ty :=
              context_declare (checker.openScope []) decl.name decl.ty
            simp [aroundBody, Context.withFunction, hanonymous, hown]
  rw [Context.inBody, ← hnamed, inBody, context_enterFunction, bodyScope, context_params]
  rfl

end Checker

end Scriptlet
