import Scriptlet.Proofs.Typing.Stuck
import Scriptlet.Proofs.Typing.View
import Scriptlet.Proofs.Tree.Untyped

/-! A check goes as the rules say. On a typed tree it finds the types that are there, and on a
tree that is stuck it stops at the same fault with the same slots filled. The slots may be emptied
before, so this is what a check makes of a tree as it was read; and they may be left as they are, so
this is what a second check makes of the tree that the first one left. -/

namespace Scriptlet

/-! The rules of types are complete: a typed tree is what a check makes of it. -/

section Typed

theorem Checker.checkResult_of_fits {checker : Checker} {context : Context} {ty : Ty} {span : Span}
    (knows : checker.context = context)
    (h : ∀ declared ∈ context.result, declared = .nothing ∨ declared = ty) :
    checker.checkResult ty span = .ok () := by
  subst knows
  obtain ⟨scopes, _ | ⟨declared, outer⟩⟩ := checker
  · rfl
  · exact if_neg fun differs => (h declared rfl).elim differs.1 differs.2

theorem Checker.checkResult_of_misfit {checker : Checker} {context : Context} {declared ty : Ty}
    {span : Span} (knows : checker.context = context) (h : context.result = some declared)
    (misfit : ¬(declared = .nothing ∨ declared = ty)) :
    checker.checkResult ty span = .error ⟨.returned declared ty, span⟩ := by
  subst knows
  obtain ⟨scopes, _ | ⟨first, outer⟩⟩ := checker
  · exact absurd h nofun
  · obtain rfl : first = declared := Option.some.inj h
    exact if_pos (not_or.mp misfit)

theorem bindingTy_of_agrees {name : String} {span : Span} {declared : Option TypeExpr} {ty : Ty}
    (agrees : ∀ written ∈ declared, written.ty = ty) :
    bindingTy name span (declared.map TypeExpr.ty) (some ty) = .ok ty := by
  cases declared with
  | none => rfl
  | some written => rw [Option.map_some, agrees written rfl, bindingTy, if_pos rfl]

theorem HaveTypes.length_eq {context : Context} {args : List Expr} {params : List Ty}
    (h : HaveTypes context args params) : params.length = args.length := by
  induction args generalizing params with
  | nil =>
      cases h
      rfl
  | cons arg rest ih =>
      cases h with
      | cons _ _ hargs => rw [List.length_cons, List.length_cons, ih hargs]

variable {change : Relabel} {context : Context} {checker : Checker}

theorem Mark.settle_filled (clears : change.Clears) {mark : Mark} {ty : Ty}
    (slot : mark.ty = some ty) : (change.mark mark).settle ty = (mark, ty) := by
  obtain ⟨span, _⟩ := mark
  cases slot
  obtain hslot | hslot := clears.slot (some ty) <;>
    simp only [Relabel.mark, clears.span, hslot, settle]

theorem Checked.settle_filled (clears : change.Clears) {ν : Type} {build : Mark → ν} {mark : Mark}
    {ty : Ty} (slot : mark.ty = some ty) :
    settle build (change.mark mark) checker (.ok ty) = ⟨build mark, checker, .ok ty⟩ := by
  rw [settle, Mark.settle_filled clears slot]

theorem Checked.settle_error (clears : change.Clears) {ν : Type} {build : Mark → ν} {mark : Mark}
    {e : TypeError} (slot : mark.ty = none) :
    settle build (change.mark mark) checker (.error e) = ⟨build mark, checker, .error e⟩ := by
  rw [settle, clears.mark slot]

theorem checkBlock_of_typed (clears : change.Clears) {block : Block}
    (h : ∀ {checker : Checker}, checker.context = context.inBlock →
      checkStmts checker (block.statements.map (Stmt.relabel change)) =
        ⟨block.statements, checker.afterAll block.statements, .ok ()⟩)
    (knows : checker.context = context) :
    checkBlock checker (block.relabel change) = ⟨block, checker, .ok ()⟩ := by
  obtain ⟨statements, span⟩ := block
  have hinside : (checker.openScope []).context = context.inBlock := by
    rw [Checker.context_openScope, knows]
  simp only [Block.relabel, Stmt.relabelAll_eq_map, checkBlock, h hinside,
    Checker.closeScope_afterAll, clears.span]

theorem checkFunction_of_typed (clears : change.Clears) {visible : NameScope} {decl : FnDecl}
    (written : ∀ param ∈ decl.params, param.ty ≠ .nothing) (slot : decl.mark.ty = some decl.ty)
    (h : ∀ {checker : Checker}, checker.context = context.inBody visible decl →
      checkStmts checker (decl.body.map (Stmt.relabel change)) =
        ⟨decl.body, checker.afterAll decl.body, .ok ()⟩)
    (knows : checker.context = context) :
    checkFunction checker visible (decl.relabel change) =
      ⟨decl, checker.aroundBody visible decl.name decl.ty, .ok decl.ty⟩ := by
  obtain ⟨name, anonymous, params, result, body, mark⟩ := decl
  have hbody := h ((Checker.context_inBody checker visible _).trans (by rw [knows]))
  simp only [FnDecl.relabel, clears.name, clears.params, clears.written?, Stmt.relabelAll_eq_map,
    checkFunction, paramTys_of_written written]
  rw [FnDecl.ty, FnDecl.resultTy] at slot
  rw [Mark.settle_filled clears slot]
  simp only [Checker.inBody, Checker.aroundBody, FnDecl.ty, FnDecl.resultTy, bodyScope]
    at hbody ⊢
  rw [hbody]
  simp only [Checker.leave_afterAll, Except.map]

mutual

theorem HasType.check (clears : change.Clears) {context : Context} {expr : Expr} {ty : Ty} :
    HasType context expr ty → {checker : Checker} → checker.context = context →
    checkExpr checker (expr.relabel change) = ⟨expr, checker, .ok ty⟩
  | .literal slot, _, _ => by
      rw [Expr.relabel, checkExpr, Checked.settle_filled clears slot]
  | .read found slot, _, knows => by
      rw [Expr.relabel, checkExpr, Checker.lookup_eq_types knows, found, orFault,
        Checked.settle_filled clears slot]
  | .assign found hvalue slot, _, knows => by
      simp only [Expr.relabel, checkExpr, Checker.lookup_eq_types knows, found,
        hvalue.check clears knows, bind, Except.bind, if_true, pure, Except.pure,
        Checked.settle_filled clears slot]
  | .group hinner slot, _, knows => by
      simp only [Expr.relabel, checkExpr, hinner.check clears knows,
        Checked.settle_filled clears slot]
  | .unary hoperand makes slot, _, knows => by
      simp only [Expr.relabel, checkExpr, hoperand.check clears knows, bind, Except.bind,
        UnaryOp.resultTy?_eq_some.mpr makes, orFault, Checked.settle_filled clears slot]
  | .binary hleft hright makes slot, _, knows => by
      simp only [Expr.relabel, checkExpr, hleft.check clears knows, hright.check clears knows, bind,
        Except.bind, BinaryOp.resultTy?_eq_some.mpr makes, orFault,
        Checked.settle_filled clears slot]
  | .call hcallee hargs slot, _, knows => by
      simp only [Expr.relabel, checkExpr, hcallee.check clears knows, Expr.relabelAll_eq_map,
        List.length_map, hargs.length_eq, if_true, hargs.check clears knows 1, bind, Except.bind,
        pure, Except.pure, Checked.settle_filled clears slot]
  | .function hdecl slot, _, knows => by
      simp only [Expr.relabel, checkExpr, hdecl.check clears knows, Checker.aroundBody,
        reduceCtorEq, if_false, Checked.settle_filled clears slot]

theorem HaveTypes.check (clears : change.Clears) {context : Context} {args : List Expr}
    {params : List Ty} :
    HaveTypes context args params → {checker : Checker} → checker.context = context →
    (number : Nat) →
    checkArgs checker number params (args.map (Expr.relabel change)) = ⟨args, checker, .ok ()⟩
  | .nil, _, _, _ => by rw [List.map_nil, checkArgs]
  | .cons harg fits hargs, _, knows, number => by
      simp only [List.map_cons, checkArgs, harg.check clears knows, fits, if_true,
        hargs.check clears knows (number + 1)]

theorem FnTyped.check (clears : change.Clears) {context : Context} {visible : NameScope}
    {decl : FnDecl} :
    FnTyped context visible decl → {checker : Checker} → checker.context = context →
    checkFunction checker visible (decl.relabel change) =
      ⟨decl, checker.aroundBody visible decl.name decl.ty, .ok decl.ty⟩
  | .intro written slot hbody, _, knows =>
      checkFunction_of_typed clears written slot (hbody.check clears) knows

theorem StmtTyped.check (clears : change.Clears) {context : Context} {stmt : Stmt} :
    StmtTyped context stmt → {checker : Checker} → checker.context = context →
    checkStmt checker (stmt.relabel change) = ⟨stmt, checker.after stmt, .ok ()⟩
  | .expression hexpr, _, knows => by
      simp only [Stmt.relabel, checkStmt, hexpr.check clears knows, Except.map]
      rfl
  | .uninitialized slot, _, _ => by
      simp only [Stmt.relabel, clears.written, Expr.relabel?, checkStmt, Option.map_some, bindingTy,
        Mark.settle_filled clears slot, Checker.after, Stmt.declared?, slot]
  | .binding hinit agrees slot, _, knows => by
      simp only [Stmt.relabel, clears.written?, Expr.relabel?, checkStmt, hinit.check clears knows,
        bind, Except.bind, bindingTy_of_agrees agrees, Mark.settle_filled clears slot,
        Checker.after, Stmt.declared?, slot, Option.map_some]
  | .block hblock, _, knows => by
      simp only [Stmt.relabel, checkStmt, checkBlock_of_typed clears (hblock.check clears) knows]
      rfl
  | .conditional hcondition hthenBlock, _, knows => by
      simp only [Stmt.relabel, Stmt.relabel?, checkStmt, hcondition.check clears knows,
        clears.span, checkBlock_of_typed clears (hthenBlock.check clears) knows]
      rfl
  | .alternative hcondition hthenBlock branch hotherwise, _, knows => by
      simp only [Stmt.relabel, Stmt.relabel?, checkStmt, hcondition.check clears knows,
        clears.span, checkBlock_of_typed clears (hthenBlock.check clears) knows,
        hotherwise.check clears knows, Checker.after_of_isBranch branch]
      rfl
  | .loop hcondition hbody, _, knows => by
      simp only [Stmt.relabel, checkStmt, hcondition.check clears knows, clears.span,
        checkBlock_of_typed clears (hbody.check clears) knows]
      rfl
  | .function hdecl, _, knows => by
      simp only [Stmt.relabel, checkStmt, hdecl.check clears knows, Checker.aroundBody,
        Checker.after, Stmt.declared?, hdecl.slot, Option.map_some, if_true, Except.map]
  | .finish result, _, knows => by
      simp only [Stmt.relabel, Expr.relabel?, checkStmt, clears.span,
        Checker.checkResult_of_fits knows fun declared h => .inl (result declared h)]
      rfl
  | .ret hvalue result, _, knows => by
      simp only [Stmt.relabel, Expr.relabel?, checkStmt, hvalue.check clears knows, clears.span,
        bind, Except.bind, Checker.checkResult_of_fits knows result]
      rfl

theorem StmtsTyped.check (clears : change.Clears) {context : Context} {stmts : List Stmt} :
    StmtsTyped context stmts → {checker : Checker} → checker.context = context →
    checkStmts checker (stmts.map (Stmt.relabel change)) =
      ⟨stmts, checker.afterAll stmts, .ok ()⟩
  | .nil, _, _ => by
      rw [List.map_nil, checkStmts]
      rfl
  | .cons hstmt hrest, checker, knows => by
      have hrest := hrest.check clears ((Checker.context_after checker _).trans (by rw [knows]))
      simp only [List.map_cons, checkStmts, hstmt.check clears knows, hrest]
      rfl

end

end Typed

/-! A stuck tree is what a check leaves behind when it stops. What the checker is left with depends
on the tree alone, and not on the slots that were emptied. -/

section Stuck

theorem checkBlock_of_stuck {context : Context} {checker : Checker} {block : Block}
    {e : TypeError}
    (h : ∀ {checker : Checker}, checker.context = context.inBlock →
      ∃ after, ∀ {change : Relabel}, change.Clears →
        checkStmts checker (block.statements.map (Stmt.relabel change)) =
          ⟨block.statements, after, .error e⟩)
    (knows : checker.context = context) :
    ∃ after, ∀ {change : Relabel}, change.Clears →
      checkBlock checker (block.relabel change) = ⟨block, after, .error e⟩ := by
  obtain ⟨statements, span⟩ := block
  have hinside : (checker.openScope []).context = context.inBlock := by
    rw [Checker.context_openScope, knows]
  obtain ⟨after, hstmts⟩ := h hinside
  refine ⟨after.closeScope, fun clears => ?_⟩
  simp only [Block.relabel, Stmt.relabelAll_eq_map, checkBlock, hstmts clears, clears.span]

theorem checkFunction_of_stuck {context : Context} {checker : Checker} {visible : NameScope}
    {decl : FnDecl} {e : TypeError} (written : ∀ param ∈ decl.params, param.ty ≠ .nothing)
    (slot : decl.mark.ty = some decl.ty)
    (h : ∀ {checker : Checker}, checker.context = context.inBody visible decl →
      ∃ after, ∀ {change : Relabel}, change.Clears →
        checkStmts checker (decl.body.map (Stmt.relabel change)) =
          ⟨decl.body, after, .error e⟩)
    (knows : checker.context = context) :
    ∃ after, ∀ {change : Relabel}, change.Clears →
      checkFunction checker visible (decl.relabel change) = ⟨decl, after, .error e⟩ := by
  obtain ⟨name, anonymous, params, result, body, mark⟩ := decl
  obtain ⟨after, hstmts⟩ := h ((Checker.context_inBody checker visible _).trans (by rw [knows]))
  refine ⟨after.leaveFunction.closeScope, fun clears => ?_⟩
  have hbody := hstmts clears
  simp only [FnDecl.relabel, clears.name, clears.params, clears.written?, Stmt.relabelAll_eq_map,
    checkFunction, paramTys_of_written written]
  rw [FnDecl.ty, FnDecl.resultTy] at slot
  rw [Mark.settle_filled clears slot]
  simp only [Checker.inBody, Checker.aroundBody, FnDecl.resultTy, bodyScope] at hbody ⊢
  rw [hbody]
  rfl

section Refused

variable {change : Relabel}

theorem checkFunction_of_untyped (clears : change.Clears) {checker : Checker} {visible : NameScope}
    {decl : FnDecl} {e : TypeError} (hparams : paramTys decl.params = .error e)
    (slot : decl.mark.ty = none) (fresh : Fresh (Stmt.allNodes decl.body)) :
    checkFunction checker visible (decl.relabel change) = ⟨decl, checker, .error e⟩ := by
  obtain ⟨name, anonymous, written, result, body, mark⟩ := decl
  simp only [FnDecl.relabel, clears.name, clears.params, clears.written?, Stmt.relabelAll_eq_map,
    checkFunction, hparams, clears.stmts fresh, clears.mark slot]

theorem checkExpr_of_refused (clears : change.Clears) {context : Context} {checker : Checker}
    {callee : Expr} {args : List Expr} {ty : Ty} {mark : Mark} (knows : checker.context = context)
    (hcallee : HasType context callee ty)
    (refused : ∀ params result, ty ≠ .function params result)
    (fresh : Fresh (Expr.allNodes args)) (slot : mark.ty = none) :
    checkExpr checker ((Expr.call callee args mark).relabel change) =
      ⟨.call callee args mark, checker, .error ⟨.notCallable ty, callee.span⟩⟩ := by
  simp only [Expr.relabel, checkExpr, hcallee.check clears knows, Expr.relabelAll_eq_map,
    clears.exprs fresh, clears.mark slot]

end Refused

theorem checkStmt_of_condition {checker after : Checker} {condition : Expr} {e : TypeError}
    {read : Expr} {thenBlock : Block} {otherwise : Option Stmt} {span : Span}
    (h : checkExpr checker read = ⟨condition, after, .error e⟩) :
    checkStmt checker (.conditional read thenBlock otherwise span) =
      ⟨.conditional condition thenBlock otherwise span, after, .error e⟩ := by
  cases otherwise <;> simp only [checkStmt, h]

theorem checkStmt_of_thenBlock {checker between after : Checker} {condition read : Expr} {ty : Ty}
    {e : TypeError} {thenBlock thenRead : Block} {otherwise : Option Stmt} {span : Span}
    (hcondition : checkExpr checker read = ⟨condition, between, .ok ty⟩)
    (h : checkBlock between thenRead = ⟨thenBlock, after, .error e⟩) :
    checkStmt checker (.conditional read thenRead otherwise span) =
      ⟨.conditional condition thenBlock otherwise span, after, .error e⟩ := by
  cases otherwise <;> simp only [checkStmt, hcondition, h]

mutual

theorem ExprStuck.check {context : Context} {expr : Expr} {e : TypeError} :
    ExprStuck context expr e → {checker : Checker} → checker.context = context →
    ∃ after, ∀ {change : Relabel}, change.Clears →
      checkExpr checker (expr.relabel change) = ⟨expr, after, .error e⟩
  | .undefined missing slot, checker, knows => ⟨checker, fun clears => by
      rw [Expr.relabel, checkExpr, Checker.lookup_eq_types knows, missing, orFault,
        clears.span_mark, Checked.settle_error clears slot]⟩
  | .undeclared missing fresh slot, checker, knows => ⟨checker, fun clears => by
      simp only [Expr.relabel, checkExpr, Checker.lookup_eq_types knows, missing,
        clears.expr fresh, clears.mark slot]⟩
  | .assigned found hvalue slot, _, knows => by
      obtain ⟨after, hcheck⟩ := hvalue.check knows
      refine ⟨after, fun clears => ?_⟩
      simp only [Expr.relabel, checkExpr, Checker.lookup_eq_types knows, found, hcheck clears,
        bind, Except.bind, Checked.settle_error clears slot]
  | .assignment found hvalue differs slot, checker, knows => ⟨checker, fun clears => by
      simp only [Expr.relabel, checkExpr, Checker.lookup_eq_types knows, found,
        hvalue.check clears knows, bind, Except.bind, if_neg differs, throw, throwThe,
        MonadExceptOf.throw, clears.span_mark, Checked.settle_error clears slot]⟩
  | .group hinner slot, _, knows => by
      obtain ⟨after, hcheck⟩ := hinner.check knows
      refine ⟨after, fun clears => ?_⟩
      simp only [Expr.relabel, checkExpr, hcheck clears, Checked.settle_error clears slot]
  | .unary hoperand slot, _, knows => by
      obtain ⟨after, hcheck⟩ := hoperand.check knows
      refine ⟨after, fun clears => ?_⟩
      simp only [Expr.relabel, checkExpr, hcheck clears, bind, Except.bind,
        Checked.settle_error clears slot]
  | .operand hoperand refused slot, checker, knows => ⟨checker, fun clears => by
      simp only [Expr.relabel, checkExpr, hoperand.check clears knows, bind, Except.bind,
        UnaryOp.resultTy?_eq_none.mpr refused, orFault, clears.span_mark,
        Checked.settle_error clears slot]⟩
  | .left hleft fresh slot, _, knows => by
      obtain ⟨after, hcheck⟩ := hleft.check knows
      refine ⟨after, fun clears => ?_⟩
      simp only [Expr.relabel, checkExpr, hcheck clears, clears.expr fresh, clears.mark slot]
  | .right hleft hright slot, _, knows => by
      obtain ⟨after, hcheck⟩ := hright.check knows
      refine ⟨after, fun clears => ?_⟩
      simp only [Expr.relabel, checkExpr, hleft.check clears knows, hcheck clears, bind,
        Except.bind, Checked.settle_error clears slot]
  | .operands hleft hright refused slot, checker, knows => ⟨checker, fun clears => by
      simp only [Expr.relabel, checkExpr, hleft.check clears knows, hright.check clears knows, bind,
        Except.bind, BinaryOp.resultTy?_eq_none.mpr refused, orFault, clears.span_mark,
        Checked.settle_error clears slot]⟩
  | .callee hcallee fresh slot, _, knows => by
      obtain ⟨after, hcheck⟩ := hcallee.check knows
      refine ⟨after, fun clears => ?_⟩
      simp only [Expr.relabel, checkExpr, hcheck clears, Expr.relabelAll_eq_map,
        clears.exprs fresh, clears.mark slot]
  | .notCallable hcallee refused fresh slot, checker, knows =>
      ⟨checker, fun clears => checkExpr_of_refused clears knows hcallee refused fresh slot⟩
  | .arity hcallee differs fresh slot, checker, knows => ⟨checker, fun clears => by
      simp only [Expr.relabel, checkExpr, hcallee.check clears knows, Expr.relabelAll_eq_map,
        clears.exprs fresh, if_neg differs, clears.mark slot]⟩
  | .args hcallee agrees hargs slot, _, knows => by
      obtain ⟨after, hcheck⟩ := hargs.check knows
      refine ⟨after, fun clears => ?_⟩
      simp only [Expr.relabel, checkExpr, hcallee.check clears knows, Expr.relabelAll_eq_map,
        List.length_map, agrees, if_true, hcheck clears, bind, Except.bind,
        Checked.settle_error clears slot]
  | .function hdecl slot, _, knows => by
      obtain ⟨after, hcheck⟩ := hdecl.check knows
      refine ⟨after, fun clears => ?_⟩
      simp only [Expr.relabel, checkExpr, hcheck clears, Checked.settle_error clears slot]

theorem ArgsStuck.check {context : Context} {number : Nat} {args : List Expr} {params : List Ty}
    {e : TypeError} :
    ArgsStuck context number args params e → {checker : Checker} → checker.context = context →
    ∃ after, ∀ {change : Relabel}, change.Clears →
      checkArgs checker number params (args.map (Expr.relabel change)) = ⟨args, after, .error e⟩
  | .here harg fresh, _, knows => by
      obtain ⟨after, hcheck⟩ := harg.check knows
      refine ⟨after, fun clears => ?_⟩
      simp only [List.map_cons, checkArgs, hcheck clears, clears.exprs fresh]
  | .mismatch harg misfit fresh, checker, knows => ⟨checker, fun clears => by
      simp only [List.map_cons, checkArgs, harg.check clears knows, if_neg misfit,
        clears.exprs fresh]⟩
  | .later harg fits hargs, _, knows => by
      obtain ⟨after, hcheck⟩ := hargs.check knows
      refine ⟨after, fun clears => ?_⟩
      simp only [List.map_cons, checkArgs, harg.check clears knows, if_pos fits, hcheck clears]

theorem FnStuck.check {context : Context} {visible : NameScope} {decl : FnDecl} {e : TypeError} :
    FnStuck context visible decl e → {checker : Checker} → checker.context = context →
    ∃ after, ∀ {change : Relabel}, change.Clears →
      checkFunction checker visible (decl.relabel change) = ⟨decl, after, .error e⟩
  | .parameter hparams haccepted untyped slot fresh, checker, knows =>
      ⟨checker, fun clears => checkFunction_of_untyped clears
        (hparams ▸ paramTys_of_split haccepted untyped _) slot fresh⟩
  | .body written slot hbody, _, knows =>
      checkFunction_of_stuck written slot hbody.check knows

theorem StmtStuck.check {context : Context} {stmt : Stmt} {e : TypeError} :
    StmtStuck context stmt e → {checker : Checker} → checker.context = context →
    ∃ after, ∀ {change : Relabel}, change.Clears →
      checkStmt checker (stmt.relabel change) = ⟨stmt, after, .error e⟩
  | .expression hexpr, _, knows => by
      obtain ⟨after, hcheck⟩ := hexpr.check knows
      exact ⟨after, fun clears => by simp only [Stmt.relabel, checkStmt, hcheck clears, Except.map]⟩
  | .untyped slot, checker, knows => ⟨checker, fun clears => by
      simp only [Stmt.relabel, Option.map_none, Expr.relabel?, checkStmt, bindingTy,
        clears.mark slot]⟩
  | .init hinit slot, _, knows => by
      obtain ⟨after, hcheck⟩ := hinit.check knows
      refine ⟨after, fun clears => ?_⟩
      simp only [Stmt.relabel, clears.written?, Expr.relabel?, checkStmt, hcheck clears, bind,
        Except.bind, clears.mark slot]
  | .initializer hinit differs slot, checker, knows => ⟨checker, fun clears => by
      simp only [Stmt.relabel, Option.map_some, clears.written, Expr.relabel?, checkStmt,
        hinit.check clears knows, bind, Except.bind, bindingTy, if_neg differs, clears.mark slot]⟩
  | .block hblock, _, knows => by
      obtain ⟨after, hcheck⟩ := checkBlock_of_stuck hblock.check knows
      exact ⟨after, fun clears => by simp only [Stmt.relabel, checkStmt, hcheck clears]⟩
  | .condition hcondition freshThen freshElse, _, knows => by
      obtain ⟨after, hcheck⟩ := hcondition.check knows
      refine ⟨after, fun clears => ?_⟩
      rw [Stmt.relabel, Stmt.relabel?_eq_map, clears.block freshThen, clears.stmt? freshElse,
        clears.span]
      exact checkStmt_of_condition (hcheck clears)
  | .thenBlock hcondition hthenBlock freshElse, _, knows => by
      obtain ⟨after, hcheck⟩ := checkBlock_of_stuck hthenBlock.check knows
      refine ⟨after, fun clears => ?_⟩
      rw [Stmt.relabel, Stmt.relabel?_eq_map, clears.stmt? freshElse, clears.span]
      exact checkStmt_of_thenBlock (hcondition.check clears knows) (hcheck clears)
  | .otherwise hcondition hthenBlock hotherwise, _, knows => by
      obtain ⟨after, hcheck⟩ := hotherwise.check knows
      refine ⟨after, fun clears => ?_⟩
      simp only [Stmt.relabel, Stmt.relabel?, checkStmt, hcondition.check clears knows,
        checkBlock_of_typed clears (hthenBlock.check clears) knows, hcheck clears, clears.span]
  | .loop hcondition fresh, _, knows => by
      obtain ⟨after, hcheck⟩ := hcondition.check knows
      refine ⟨after, fun clears => ?_⟩
      simp only [Stmt.relabel, checkStmt, hcheck clears, clears.block fresh, clears.span]
  | .body hcondition hbody, _, knows => by
      obtain ⟨after, hcheck⟩ := checkBlock_of_stuck hbody.check knows
      refine ⟨after, fun clears => ?_⟩
      simp only [Stmt.relabel, checkStmt, hcondition.check clears knows, hcheck clears, clears.span]
  | .function hdecl, _, knows => by
      obtain ⟨after, hcheck⟩ := hdecl.check knows
      exact ⟨after, fun clears => by simp only [Stmt.relabel, checkStmt, hcheck clears, Except.map]⟩
  | .finish result differs, checker, knows => ⟨checker, fun clears => by
      simp only [Stmt.relabel, Expr.relabel?, checkStmt, clears.span,
        Checker.checkResult_of_misfit knows result fun fits => differs (or_self_iff.mp fits)]⟩
  | .value hvalue, _, knows => by
      obtain ⟨after, hcheck⟩ := hvalue.check knows
      refine ⟨after, fun clears => ?_⟩
      simp only [Stmt.relabel, Expr.relabel?, checkStmt, hcheck clears, clears.span, bind,
        Except.bind]
  | .ret hvalue result misfit, checker, knows => ⟨checker, fun clears => by
      simp only [Stmt.relabel, Expr.relabel?, checkStmt, hvalue.check clears knows, clears.span,
        bind, Except.bind, Checker.checkResult_of_misfit knows result misfit]⟩

theorem StmtsStuck.check {context : Context} {stmts : List Stmt} {e : TypeError} :
    StmtsStuck context stmts e → {checker : Checker} → checker.context = context →
    ∃ after, ∀ {change : Relabel}, change.Clears →
      checkStmts checker (stmts.map (Stmt.relabel change)) = ⟨stmts, after, .error e⟩
  | .here hstmt fresh, _, knows => by
      obtain ⟨after, hcheck⟩ := hstmt.check knows
      refine ⟨after, fun clears => ?_⟩
      simp only [List.map_cons, checkStmts, hcheck clears, clears.stmts fresh]
  | .later hstmt hrest, checker, knows => by
      obtain ⟨after, hcheck⟩ :=
        hrest.check ((Checker.context_after checker _).trans (by rw [knows]))
      refine ⟨after, fun clears => ?_⟩
      simp only [List.map_cons, checkStmts, hstmt.check clears knows, hcheck clears]

end

end Stuck

end Scriptlet
