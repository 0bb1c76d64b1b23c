import Scriptlet.Proofs.Tree.Names
import Scriptlet.Proofs.Tree.Shift
import Scriptlet.Ty.Check

/-! Checking a tree with other places and other made-up names. Types depend on neither, so the check
comes to the same end, only that the places are changed in its error and the names in its scopes. -/

namespace Scriptlet

/-- The change leaves types alone and does not mix up names. -/
structure Relabel.Faithful (change : Relabel) : Prop where
  slot : ∀ ty, change.slot ty = ty
  injective : Function.Injective change.unnamed

theorem Relabel.shift_faithful (bytes lines : Nat) : (shift bytes lines).Faithful :=
  ⟨fun _ => rfl, Function.injective_id⟩

theorem Relabel.name_of_fixed {change : Relabel} {anonymous : Bool} {name : String}
    (h : anonymous = false → change.unnamed name = name) :
    change.name anonymous name = change.unnamed name := by
  cases anonymous with
  | true => rfl
  | false => exact (h rfl).symm

namespace Bindings

variable {α : Type} {rename : String → String}

def renamed (rename : String → String) (bindings : Bindings α) : Bindings α :=
  bindings.map fun entry => (rename entry.1, entry.2)

theorem find?_renamed (h : Function.Injective rename) (bindings : Bindings α) (name : String) :
    find? (bindings.renamed rename) (rename name) = find? bindings name := by
  induction bindings with
  | nil => rfl
  | cons entry rest ih =>
      have hrest : find? (Bindings.renamed rename rest) (rename name) = find? rest name := ih
      rw [find?, ← hrest]
      exact if_congr h.eq_iff rfl rfl

theorem insert_renamed (h : Function.Injective rename) (bindings : Bindings α) (name : String)
    (value : α) :
    insert (bindings.renamed rename) (rename name) value =
      (insert bindings name value).renamed rename := by
  induction bindings with
  | nil => rfl
  | cons entry rest ih =>
      have hrest : insert (Bindings.renamed rename rest) (rename name) value =
          Bindings.renamed rename (insert rest name value) := ih
      by_cases hname : entry.1 = name
      · simp [Bindings.renamed, insert, hname]
      · have hother : rename entry.1 ≠ rename name := fun hsame => hname (h hsame)
        simp only [Bindings.renamed, List.map_cons, insert, if_neg hname, if_neg hother]
        exact congrArg _ hrest

end Bindings

namespace Checker

variable {rename : String → String}

def renamed (rename : String → String) (checker : Checker) : Checker :=
  { checker with scopes := checker.scopes.map (Bindings.renamed rename) }

theorem renamed_id (checker : Checker) : checker.renamed id = checker := by
  have hscope : ∀ scope : Bindings Ty, scope.renamed id = scope := fun scope => List.map_id scope
  simp [renamed, funext hscope]

theorem lookup_renamed (h : Function.Injective rename) (checker : Checker) {name : String}
    (hname : rename name = name) : (checker.renamed rename).lookup name = checker.lookup name := by
  have hscope : ∀ scope : Bindings Ty, (scope.renamed rename).find? name = scope.find? name :=
    fun scope => by
      have hfind := scope.find?_renamed h name
      rwa [hname] at hfind
  simp only [lookup, renamed, List.findSome?_map, Function.comp_def, hscope]

theorem declare_renamed (h : Function.Injective rename) (checker : Checker) (name : String)
    (ty : Ty) :
    (checker.renamed rename).declare (rename name) ty =
      (checker.declare name ty).renamed rename := by
  obtain ⟨scopes, returns⟩ := checker
  cases scopes with
  | nil => rfl
  | cons scope outer => simp [declare, Checker.renamed, Bindings.insert_renamed h]

theorem openScope_renamed (checker : Checker) (scope : Bindings Ty) :
    (checker.renamed rename).openScope (scope.renamed rename) =
      (checker.openScope scope).renamed rename := rfl

theorem enterFunction_renamed (checker : Checker) (result : Ty) :
    (checker.renamed rename).enterFunction result =
      (checker.enterFunction result).renamed rename := rfl

theorem leaveFunction_renamed (checker : Checker) :
    (checker.renamed rename).leaveFunction = checker.leaveFunction.renamed rename := rfl

theorem closeScope_renamed (checker : Checker) :
    (checker.renamed rename).closeScope = checker.closeScope.renamed rename := by
  simp [closeScope, renamed]

end Checker

def TypeError.relabel (change : Relabel) (e : TypeError) : TypeError :=
  ⟨e.fault, change.span e.span⟩

def Checked.relabel {ν α : Type} (change : Relabel) (node : ν → ν) (checked : Checked ν α) :
    Checked ν α :=
  ⟨node checked.node, checked.checker.renamed change.unnamed,
    checked.result.mapError (·.relabel change)⟩

mutual

theorem TypeExpr.ty_relabel {change : Relabel} : (written : TypeExpr) →
    (written.relabel change).ty = written.ty
  | .named .. => rfl
  | .function params none _ => by rw [relabel, relabel?, ty, ty, tys_relabelAll params]
  | .function params (some result) _ => by
      rw [relabel, relabel?, ty, ty, tys_relabelAll params, result.ty_relabel]

theorem TypeExpr.tys_relabelAll {change : Relabel} : (written : List TypeExpr) →
    tys (relabelAll change written) = tys written
  | [] => rfl
  | first :: rest => by rw [relabelAll, tys, tys, first.ty_relabel, tys_relabelAll rest]

end

theorem TypeExpr.map_ty_relabel {change : Relabel} (written : Option TypeExpr) :
    (written.map (relabel change)).map ty = written.map ty := by
  cases written with
  | none => rfl
  | some written => exact congrArg some written.ty_relabel

section Relabel

variable {change : Relabel}

theorem mapError_ok {α : Type} (a : α) :
    (Except.ok a).mapError (TypeError.relabel change) = .ok a := rfl

theorem mapError_error {α : Type} (e : TypeError) :
    (Except.error e : Except TypeError α).mapError (TypeError.relabel change) =
      .error (e.relabel change) := rfl

theorem mapError_bind {α β : Type} {result : Except TypeError α}
    {next next' : α → Except TypeError β}
    (h : ∀ a, next' a = (next a).mapError (TypeError.relabel change)) :
    result.mapError (TypeError.relabel change) >>= next' =
      (result >>= next).mapError (TypeError.relabel change) := by
  cases result with
  | error e => rfl
  | ok a => exact h a

theorem map_mapError {α β : Type} (result : Except TypeError α) (f : α → β) :
    (result.mapError (TypeError.relabel change)).map f =
      (result.map f).mapError (TypeError.relabel change) := by
  cases result <;> rfl

theorem orFault_relabel {α : Type} (value : Option α) (fault : TypeFault) (span : Span) :
    orFault value fault (change.span span) =
      (orFault value fault span).mapError (TypeError.relabel change) := by
  cases value <;> rfl

theorem paramTys_relabel (params : List Param) :
    paramTys (params.map (Param.relabel change)) =
      (paramTys params).mapError (TypeError.relabel change) := by
  induction params with
  | nil => rfl
  | cons param rest ih =>
      have hparam : (param.relabel change).declared.map TypeExpr.ty =
          param.declared.map TypeExpr.ty := TypeExpr.map_ty_relabel _
      rw [List.map_cons, paramTys, paramTys, hparam, ih]
      cases param.declared.map TypeExpr.ty with
      | none => rfl
      | some ty =>
          cases ty with
          | nothing => rfl
          | _ => exact mapError_bind fun tys => rfl

theorem bindingTy_relabel (name : String) (span : Span) (declared init : Option Ty) :
    bindingTy name (change.span span) declared init =
      (bindingTy name span declared init).mapError (TypeError.relabel change) := by
  cases declared with
  | none => cases init <;> rfl
  | some declared =>
      cases init with
      | none => rfl
      | some init =>
          simp only [bindingTy]
          split <;> rfl

theorem Checker.checkResult_relabel (checker : Checker) (value : Ty) (span : Span) :
    (checker.renamed change.unnamed).checkResult value (change.span span) =
      (checker.checkResult value span).mapError (TypeError.relabel change) := by
  obtain ⟨scopes, returns⟩ := checker
  cases returns with
  | nil => rfl
  | cons declared outer =>
      simp only [checkResult, Checker.renamed]
      split <;> rfl

theorem Mark.settle_relabel (h : change.Faithful) (mark : Mark) (ty : Ty) :
    (change.mark mark).settle ty = (change.mark (mark.settle ty).1, (mark.settle ty).2) := by
  obtain ⟨span, _ | old⟩ := mark <;> simp [settle, Relabel.mark, h.slot]

theorem Checked.settle_relabel {ν : Type} (h : change.Faithful) {node : ν → ν}
    {build build' : Mark → ν} {mark : Mark} {checker checker' : Checker}
    {result result' : Except TypeError Ty}
    (hbuild : ∀ mark, build' (change.mark mark) = node (build mark))
    (hchecker : checker' = checker.renamed change.unnamed)
    (hresult : result' = result.mapError (TypeError.relabel change)) :
    Checked.settle build' (change.mark mark) checker' result' =
      (Checked.settle build mark checker result).relabel change node := by
  subst hresult hchecker
  cases result with
  | error e => simp only [Checked.settle, Checked.relabel, mapError_error, hbuild]
  | ok ty =>
      simp only [Checked.settle, Checked.relabel, mapError_ok, Mark.settle_relabel h, hbuild]

theorem foldl_insert_renamed (h : change.Faithful) (entries : List (Param × Ty))
    (hfixes : ∀ entry ∈ entries, change.unnamed entry.1.name = entry.1.name)
    (scope : Bindings Ty) :
    entries.foldl (fun scope entry => scope.insert entry.1.name entry.2)
        (scope.renamed change.unnamed) =
      (entries.foldl (fun scope entry => scope.insert entry.1.name entry.2) scope).renamed
        change.unnamed := by
  induction entries generalizing scope with
  | nil => rfl
  | cons entry rest ih =>
      obtain ⟨hentry, hrest⟩ := List.forall_mem_cons.mp hfixes
      have hinsert := scope.insert_renamed h.injective entry.1.name entry.2
      rw [hentry] at hinsert
      rw [List.foldl_cons, List.foldl_cons, hinsert, ih hrest]

theorem bodyScope_relabel (h : change.Faithful) {visible : NameScope} {name : String}
    {anonymous : Bool} {params : List Param} {result : Option TypeExpr} {mark : Mark} {ty : Ty}
    {tys : List Ty} (hparams : ∀ param ∈ params, change.unnamed param.name = param.name) :
    bodyScope visible ⟨change.unnamed name, anonymous, params.map (Param.relabel change),
        result.map (TypeExpr.relabel change), [], change.mark mark⟩ ty tys =
      (bodyScope visible ⟨name, anonymous, params, result, [], mark⟩ ty tys).renamed
        change.unnamed := by
  have hzip : ∀ entry ∈ params.zip tys, change.unnamed entry.1.name = entry.1.name :=
    fun entry hmem => hparams _ (List.of_mem_zip hmem).1
  simp only [bodyScope, List.zip_map_left, List.foldl_map]
  refine Eq.trans ?_ (foldl_insert_renamed h _ hzip _)
  congr 1
  split <;> rfl

mutual

theorem checkExpr_relabel (h : change.Faithful) : (expr : Expr) →
    Fixes change.unnamed expr.nodes → (checker : Checker) →
    checkExpr (checker.renamed change.unnamed) (expr.relabel change) =
      (checkExpr checker expr).relabel change (Expr.relabel change)
  | .literal _ _, _, _ => Checked.settle_relabel h (fun _ => rfl) rfl rfl
  | .variable name mark, hfixes, checker => by
      simp only [Expr.nodes, fixes_cons, Node.plainNames, List.forall_mem_singleton] at hfixes
      simp only [Expr.relabel, checkExpr, checker.lookup_renamed h.injective hfixes.1]
      exact Checked.settle_relabel h (fun _ => rfl) rfl (orFault_relabel _ _ mark.span)
  | .assign name value mark, hfixes, checker => by
      simp only [Expr.nodes, fixes_cons, Node.plainNames, List.forall_mem_singleton] at hfixes
      simp only [Expr.relabel, checkExpr, checker.lookup_renamed h.injective hfixes.1,
        checkExpr_relabel h value hfixes.2]
      cases checker.lookup name with
      | none => rfl
      | some target =>
          refine Checked.settle_relabel h (fun _ => rfl) rfl (mapError_bind fun actual => ?_)
          split <;> rfl
  | .group inner _, hfixes, checker => by
      simp only [Expr.nodes, fixes_cons] at hfixes
      simp only [Expr.relabel, checkExpr, checkExpr_relabel h inner hfixes.2]
      exact Checked.settle_relabel h (fun _ => rfl) rfl rfl
  | .unary op operand mark, hfixes, checker => by
      simp only [Expr.nodes, fixes_cons] at hfixes
      simp only [Expr.relabel, checkExpr, checkExpr_relabel h operand hfixes.2]
      exact Checked.settle_relabel h (fun _ => rfl) rfl
        (mapError_bind fun _ => orFault_relabel _ _ mark.span)
  | .binary op left right mark, hfixes, checker => by
      simp only [Expr.nodes, fixes_cons, fixes_append] at hfixes
      have hright := checkExpr_relabel h right hfixes.2.2
      simp only [Expr.relabel, checkExpr, checkExpr_relabel h left hfixes.2.1]
      cases hleft : (checkExpr checker left).result with
      | error e => simp only [Checked.relabel, hleft, mapError_error, Expr.relabel]
      | ok ty =>
          simp only [Checked.relabel, hleft, mapError_ok, hright]
          exact Checked.settle_relabel h (fun _ => rfl) rfl
            (mapError_bind fun _ => orFault_relabel _ _ mark.span)
  | .call callee args mark, hfixes, checker => by
      simp only [Expr.nodes, fixes_cons, fixes_append] at hfixes
      have hargs := checkArgs_relabel h args hfixes.2.2
      have hlength : (Expr.relabelAll change args).length = args.length := by simp
      simp only [Expr.relabel, checkExpr, checkExpr_relabel h callee hfixes.2.1, hlength]
      cases hcallee : (checkExpr checker callee).result with
      | error e => simp only [Checked.relabel, hcallee, mapError_error, Expr.relabel]
      | ok ty =>
          simp only [Checked.relabel, hcallee, mapError_ok, hargs]
          cases ty with
          | function params result =>
              dsimp only
              split
              · exact Checked.settle_relabel h (fun _ => rfl) rfl (mapError_bind fun _ => rfl)
              · rfl
          | _ =>
              simp only [Expr.span_relabel]
              rfl
  | .function decl mark, hfixes, checker => by
      simp only [Expr.nodes, fixes_cons] at hfixes
      simp only [Expr.relabel, checkExpr, checkFunction_relabel h decl hfixes.2]
      exact Checked.settle_relabel h (fun _ => rfl) rfl rfl

theorem checkArgs_relabel (h : change.Faithful) : (args : List Expr) →
    Fixes change.unnamed (Expr.allNodes args) → (checker : Checker) → (number : Nat) →
    (params : List Ty) →
    checkArgs (checker.renamed change.unnamed) number params (Expr.relabelAll change args) =
      (checkArgs checker number params args).relabel change (Expr.relabelAll change)
  | [], _, _, _, _ => rfl
  | arg :: rest, hfixes, checker, number, params => by
      simp only [Expr.allNodes, fixes_append] at hfixes
      have hrest := checkArgs_relabel h rest hfixes.2
      cases params with
      | nil => rfl
      | cons param params =>
          simp only [Expr.relabelAll, checkArgs, checkExpr_relabel h arg hfixes.1]
          cases harg : (checkExpr checker arg).result with
          | error e => simp only [Checked.relabel, harg, mapError_error, Expr.relabelAll]
          | ok ty =>
              simp only [Checked.relabel, harg, mapError_ok, hrest]
              split
              · rfl
              · simp only [Expr.span_relabel]
                rfl

theorem checkFunction_relabel (h : change.Faithful) : (decl : FnDecl) →
    Fixes change.unnamed decl.nodes → (checker : Checker) → (visible : NameScope) →
    checkFunction (checker.renamed change.unnamed) visible (decl.relabel change) =
      (checkFunction checker visible decl).relabel change (FnDecl.relabel change)
  | ⟨name, anonymous, params, result, body, mark⟩, hfixes, checker, visible => by
      simp only [FnDecl.nodes, fixes_cons, Node.plainNames, List.forall_mem_append,
        List.forall_mem_map] at hfixes
      obtain ⟨⟨hparams, hplain⟩, hbody⟩ := hfixes
      have hname : change.name anonymous name = change.unnamed name :=
        Relabel.name_of_fixed fun hnamed => hplain name (by simp [hnamed])
      simp only [FnDecl.relabel, hname, checkFunction, paramTys_relabel,
        TypeExpr.map_ty_relabel, Mark.settle_relabel h]
      cases paramTys params with
      | error e => simp only [Checked.relabel, mapError_error, FnDecl.relabel, hname]
      | ok tys =>
          have haround : ∀ ty, (if visible = .around then
              (checker.renamed change.unnamed).declare (change.unnamed name) ty
                else checker.renamed change.unnamed) =
              (if visible = .around then checker.declare name ty else checker).renamed
                change.unnamed := by
            intro ty
            split
            · exact checker.declare_renamed h.injective name ty
            · rfl
          have hbody := checkStmts_relabel h body hbody
          simp only [mapError_ok, haround, bodyScope_relabel h hparams,
            Checker.openScope_renamed, Checker.enterFunction_renamed, hbody, Checked.relabel,
            Checker.leaveFunction_renamed, Checker.closeScope_renamed, FnDecl.relabel, hname]
          exact congrArg (Checked.mk _ _) (map_mapError _ _)

theorem checkStmt_relabel (h : change.Faithful) : (stmt : Stmt) →
    Fixes change.unnamed stmt.nodes → (checker : Checker) →
    checkStmt (checker.renamed change.unnamed) (stmt.relabel change) =
      (checkStmt checker stmt).relabel change (Stmt.relabel change)
  | .expression expr, hfixes, checker => by
      simp only [Stmt.nodes, fixes_cons] at hfixes
      simp only [Stmt.relabel, checkStmt, checkExpr_relabel h expr hfixes.2, Checked.relabel,
        map_mapError]
  | .binding name declared none mark, hfixes, checker => by
      simp only [Stmt.nodes, fixes_cons, Node.plainNames, List.forall_mem_singleton] at hfixes
      have hdeclare := fun ty => checker.declare_renamed h.injective name ty
      rw [hfixes.1] at hdeclare
      simp only [Stmt.relabel, Expr.relabel?, checkStmt, TypeExpr.map_ty_relabel]
      rw [show (change.mark mark).span = change.span mark.span from rfl, bindingTy_relabel]
      cases bindingTy name mark.span (declared.map TypeExpr.ty) none with
      | error e => rfl
      | ok ty =>
          simp only [mapError_ok, Mark.settle_relabel h, hdeclare]
          rfl
  | .binding name declared (some init) mark, hfixes, checker => by
      simp only [Stmt.nodes, fixes_cons, Node.plainNames, List.forall_mem_singleton] at hfixes
      have hdeclare := fun checker ty => Checker.declare_renamed h.injective checker name ty
      rw [hfixes.1] at hdeclare
      have hty : (((checkExpr checker init).result.mapError (TypeError.relabel change)) >>=
            fun ty => bindingTy name (change.span mark.span) (declared.map TypeExpr.ty) (some ty)) =
          ((checkExpr checker init).result >>= fun ty =>
            bindingTy name mark.span (declared.map TypeExpr.ty) (some ty)).mapError
              (TypeError.relabel change) :=
        mapError_bind fun ty => bindingTy_relabel name mark.span _ (some ty)
      simp only [Stmt.relabel, Expr.relabel?, checkStmt, TypeExpr.map_ty_relabel,
        checkExpr_relabel h init hfixes.2, Checked.relabel]
      rw [show (change.mark mark).span = change.span mark.span from rfl, hty]
      cases (checkExpr checker init).result >>= fun ty =>
          bindingTy name mark.span (declared.map TypeExpr.ty) (some ty) with
      | error e => rfl
      | ok ty =>
          simp only [mapError_ok, Mark.settle_relabel h, hdeclare]
          rfl
  | .block block, hfixes, checker => by
      simp only [Stmt.nodes, fixes_cons] at hfixes
      simp only [Stmt.relabel, checkStmt, checkBlock_relabel h block hfixes.2]
      rfl
  | .conditional condition thenBlock none span, hfixes, checker => by
      simp only [Stmt.nodes, fixes_cons, fixes_append] at hfixes
      have hthen := checkBlock_relabel h thenBlock hfixes.2.2
      simp only [Stmt.relabel, Stmt.relabel?, checkStmt, checkExpr_relabel h condition hfixes.2.1]
      cases hcondition : (checkExpr checker condition).result with
      | error e =>
          simp only [Checked.relabel, hcondition, mapError_error, Stmt.relabel, Stmt.relabel?]
      | ok ty =>
          simp only [Checked.relabel, hcondition, mapError_ok, hthen, Stmt.relabel,
            Stmt.relabel?]
  | .conditional condition thenBlock (some otherwise) span, hfixes, checker => by
      simp only [Stmt.nodes, fixes_cons, fixes_append] at hfixes
      have hthen := checkBlock_relabel h thenBlock hfixes.2.2.1
      have hotherwise := checkStmt_relabel h otherwise hfixes.2.2.2
      simp only [Stmt.relabel, Stmt.relabel?, checkStmt, checkExpr_relabel h condition hfixes.2.1]
      cases hcondition : (checkExpr checker condition).result with
      | error e =>
          simp only [Checked.relabel, hcondition, mapError_error, Stmt.relabel, Stmt.relabel?]
      | ok ty =>
          simp only [Checked.relabel, hcondition, mapError_ok, hthen]
          cases hblock : (checkBlock (checkExpr checker condition).checker thenBlock).result with
          | error e => simp only [mapError_error, Stmt.relabel, Stmt.relabel?]
          | ok => simp only [mapError_ok, hotherwise, Checked.relabel, Stmt.relabel, Stmt.relabel?]
  | .loop condition body span, hfixes, checker => by
      simp only [Stmt.nodes, fixes_cons, fixes_append] at hfixes
      have hbody := checkBlock_relabel h body hfixes.2.2
      simp only [Stmt.relabel, checkStmt, checkExpr_relabel h condition hfixes.2.1]
      cases hcondition : (checkExpr checker condition).result with
      | error e => simp only [Checked.relabel, hcondition, mapError_error, Stmt.relabel]
      | ok ty => simp only [Checked.relabel, hcondition, mapError_ok, hbody, Stmt.relabel]
  | .function decl, hfixes, checker => by
      simp only [Stmt.nodes, fixes_cons] at hfixes
      simp only [Stmt.relabel, checkStmt, checkFunction_relabel h decl hfixes.2, Checked.relabel,
        map_mapError]
  | .ret none span, _, checker => by
      simp only [Stmt.relabel, Expr.relabel?, checkStmt, Checker.checkResult_relabel]
      rfl
  | .ret (some value) span, hfixes, checker => by
      simp only [Stmt.nodes, fixes_cons] at hfixes
      simp only [Stmt.relabel, Expr.relabel?, checkStmt, checkExpr_relabel h value hfixes.2]
      exact congrArg (Checked.mk _ _)
        (mapError_bind fun ty => Checker.checkResult_relabel _ ty span)

theorem checkStmts_relabel (h : change.Faithful) : (stmts : List Stmt) →
    Fixes change.unnamed (Stmt.allNodes stmts) → (checker : Checker) →
    checkStmts (checker.renamed change.unnamed) (Stmt.relabelAll change stmts) =
      (checkStmts checker stmts).relabel change (Stmt.relabelAll change)
  | [], _, _ => rfl
  | stmt :: rest, hfixes, checker => by
      simp only [Stmt.allNodes, fixes_append] at hfixes
      have hrest := checkStmts_relabel h rest hfixes.2
      simp only [Stmt.relabelAll, checkStmts, checkStmt_relabel h stmt hfixes.1]
      cases hstmt : (checkStmt checker stmt).result with
      | error e => simp only [Checked.relabel, hstmt, mapError_error, Stmt.relabelAll]
      | ok => simp only [Checked.relabel, hstmt, mapError_ok, hrest, Stmt.relabelAll]

theorem checkBlock_relabel (h : change.Faithful) : (block : Block) →
    Fixes change.unnamed block.nodes → (checker : Checker) →
    checkBlock (checker.renamed change.unnamed) (block.relabel change) =
      (checkBlock checker block).relabel change (Block.relabel change)
  | ⟨statements, span⟩, hfixes, checker => by
      simp only [Block.nodes] at hfixes
      have hscope : (checker.renamed change.unnamed).openScope [] =
          (checker.openScope []).renamed change.unnamed := rfl
      simp only [Block.relabel, checkBlock, hscope, checkStmts_relabel h statements hfixes,
        Checked.relabel, Checker.closeScope_renamed]

end

theorem Program.check_relabel (h : change.Faithful) (program : Program)
    (hfixes : Fixes change.unnamed program.nodes) (checker : Checker) :
    (program.relabel change).check (checker.renamed change.unnamed) =
      (program.check checker).relabel change (Program.relabel change) := by
  have hstmts := checkStmts_relabel h program.statements hfixes checker
  rw [Stmt.relabelAll_eq_map] at hstmts
  simp only [check, relabel, hstmts, Checked.relabel, Stmt.relabelAll_eq_map]

end Relabel

end Scriptlet
