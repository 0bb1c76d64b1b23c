import Scriptlet.Proofs.Lines.Arising
import Scriptlet.Proofs.Typing.Stacks
import Scriptlet.Proofs.Typing.Text

/-! The types that a check meets. They come from annotations and from the built-in functions, so
they are all legible; and where two of them were to agree and do not, their texts differ too. -/

namespace Scriptlet

/-- No slot is filled, and all annotations mean legible types. -/
def AllAnnotated (nodes : List Node) : Prop :=
  ∀ node ∈ nodes, node.isFresh ∧ ∀ written ∈ node.annotations, written.ty.Legible

section AllAnnotated

variable {node : Node} {nodes first second : List Node}

@[simp] theorem allAnnotated_cons : AllAnnotated (node :: nodes) ↔
    (node.isFresh ∧ ∀ written ∈ node.annotations, written.ty.Legible) ∧ AllAnnotated nodes :=
  List.forall_mem_cons

@[simp] theorem allAnnotated_append : AllAnnotated (first ++ second) ↔
    AllAnnotated first ∧ AllAnnotated second := List.forall_mem_append

end AllAnnotated

namespace Ty

theorem legible_int : int.Legible := ⟨⟨by decide, by decide⟩, rfl⟩

theorem legible_float : float.Legible := ⟨⟨by decide, by decide⟩, rfl⟩

theorem legible_string : string.Legible := ⟨⟨by decide, by decide⟩, rfl⟩

theorem legible_bool : bool.Legible := ⟨⟨by decide, by decide⟩, rfl⟩

theorem legible_nothing : nothing.Legible := ⟨⟨by decide, by decide⟩, rfl⟩

end Ty

theorem Literal.legible_ty (value : Literal) : value.ty.Legible := by
  cases value
  · exact Ty.legible_int
  · exact Ty.legible_float
  · exact Ty.legible_string
  · exact Ty.legible_bool

theorem Builtin.legible_signature (builtin : Builtin) : builtin.signature.Legible := by
  cases builtin <;> simp [signature, Ty.legible_function_iff, Ty.legible_int, Ty.legible_nothing]

theorem Ty.legible_widen? {left right : Ty} : ∀ ty ∈ left.widen? right, ty.Legible := by
  have hnumeric : ∀ ty ∈ left.widen? right, ty = .int ∨ ty = .float := by
    unfold widen?
    split <;> simp
  intro ty hty
  rcases hnumeric ty hty with rfl | rfl
  · exact legible_int
  · exact legible_float

theorem BinaryOp.legible_resultTy? {op : BinaryOp} {left right : Ty} :
    ∀ ty ∈ op.resultTy? left right, ty.Legible := by
  have hbool : ∀ ty ∈ (left.widen? right).map fun _ => Ty.bool, ty.Legible := by
    simp +contextual [Ty.legible_bool]
  intro ty hty
  cases op with
  | add =>
      simp only [resultTy?] at hty
      split at hty
      · obtain rfl := Option.some.inj hty
        exact Ty.legible_string
      · exact Ty.legible_widen? ty hty
  | subtract | multiply | divide => exact Ty.legible_widen? ty hty
  | floorDivide =>
      obtain ⟨_, -, rfl⟩ := Option.map_eq_some_iff.mp hty
      exact Ty.legible_int
  | equal | notEqual =>
      simp only [resultTy?] at hty
      split at hty
      · obtain rfl := Option.some.inj hty
        exact Ty.legible_bool
      · cases hty
  | less | lessEqual | greater | greaterEqual => exact hbool ty hty

theorem UnaryOp.legible_resultTy? {op : UnaryOp} {operand : Ty} (h : operand.Legible) :
    ∀ ty ∈ op.resultTy? operand, ty.Legible := by
  intro ty hty
  cases op with
  | negate =>
      simp only [resultTy?] at hty
      split at hty
      · obtain rfl := Option.some.inj hty
        exact h
      · cases hty
  | not =>
      obtain rfl := Option.some.inj hty
      exact Ty.legible_bool

def TypeFault.clash? : TypeFault → Option (Ty × Ty)
  | .assignment _ target value => some (target, value)
  | .initializer _ declared init => some (declared, init)
  | .returned declared value => some (declared, value)
  | .argument _ param arg => some (param, arg)
  | _ => none

/-- Types that were to agree are legible, and they do not agree. -/
def TypeError.Legible (e : TypeError) : Prop :=
  ∀ clash ∈ e.fault.clash?, clash.1.Legible ∧ clash.2.Legible ∧ clash.1 ≠ clash.2

theorem TypeError.Legible.text_ne {e : TypeError} (h : e.Legible) :
    ∀ clash ∈ e.fault.clash?, clash.1.text ≠ clash.2.text := by
  intro clash hclash
  obtain ⟨hfirst, hsecond, hne⟩ := h clash hclash
  exact fun hsame => hne ((Ty.text_inj hfirst hsecond).mp hsame)

def Legibly {α : Type} (good : α → Prop) : Except TypeError α → Prop
  | .ok a => good a
  | .error e => e.Legible

section Legibly

variable {α β : Type} {good : α → Prop} {fine : β → Prop} {result : Except TypeError α}

theorem legibly_pure {a : α} (h : good a) : Legibly good (pure a) := h

theorem Legibly.bind (h : Legibly good result) {next : α → Except TypeError β}
    (hnext : ∀ a, good a → Legibly fine (next a)) : Legibly fine (result >>= next) := by
  cases result with
  | error e => exact h
  | ok a => exact hnext a h

theorem Legibly.map (h : Legibly good result) {f : α → β} (hf : ∀ a, good a → fine (f a)) :
    Legibly fine (result.map f) := by
  cases result with
  | error e => exact h
  | ok a => exact hf a h

theorem legibly_fault {fault : TypeFault} (h : fault.clash? = none) (span : Span) :
    Legibly good (.error ⟨fault, span⟩) := fun clash hclash => by
  rw [h] at hclash
  cases hclash

theorem legibly_orFault {value : Option α} {fault : TypeFault} (h : ∀ a ∈ value, good a)
    (hfault : fault.clash? = none) (span : Span) : Legibly good (orFault value fault span) := by
  cases value with
  | none => exact legibly_fault hfault span
  | some a => exact h a rfl

end Legibly

theorem Ty.Legible.settle {ty : Ty} (h : ty.Legible) {mark : Mark} (fresh : mark.ty.isNone) :
    (mark.settle ty).2.Legible := by
  rwa [Mark.settle, Option.isNone_iff_eq_none.mp fresh]

theorem Legibly.settle {ν : Type} {build : Mark → ν} {mark : Mark} {checker : Checker}
    {result : Except TypeError Ty} (h : Legibly Ty.Legible result) (fresh : mark.ty.isNone) :
    Legibly Ty.Legible (Checked.settle build mark checker result).result := by
  cases result with
  | error e => exact h
  | ok ty => exact Ty.Legible.settle h fresh

def Bindings.Legible (scope : Bindings Ty) : Prop := ∀ entry ∈ scope, entry.2.Legible

section Bindings

variable {scope : Bindings Ty}

theorem Bindings.Legible.find? (h : scope.Legible) {name : String} :
    ∀ ty ∈ scope.find? name, ty.Legible := by
  induction scope with
  | nil => simp
  | cons entry rest ih =>
      obtain ⟨hentry, hrest⟩ := List.forall_mem_cons.mp h
      intro ty hty
      simp only [Bindings.find?] at hty
      split at hty
      · obtain rfl := Option.some.inj hty
        exact hentry
      · exact ih hrest ty hty

theorem Bindings.Legible.insert (h : scope.Legible) (name : String) {ty : Ty} (hty : ty.Legible) :
    (scope.insert name ty).Legible := by
  induction scope with
  | nil => exact List.forall_mem_singleton.mpr hty
  | cons entry rest ih =>
      obtain ⟨hentry, hrest⟩ := List.forall_mem_cons.mp h
      simp only [Bindings.insert]
      split
      · exact List.forall_mem_cons.mpr ⟨hty, hrest⟩
      · exact List.forall_mem_cons.mpr ⟨hentry, ih hrest⟩

theorem legible_bodyScope {visible : NameScope} {decl : FnDecl} {ty : Ty} {params : List Ty}
    (hty : ty.Legible) (hparams : ∀ param ∈ params, param.Legible) :
    (bodyScope visible decl ty params).Legible := by
  have hentries : ∀ entry ∈ decl.params.zip params, entry.2.Legible :=
    fun entry hmem => hparams entry.2 (List.of_mem_zip hmem).2
  unfold bodyScope
  generalize decl.params.zip params = entries at hentries
  have hown : Bindings.Legible
      (if visible = .inside ∧ !decl.anonymous then [(decl.name, ty)] else []) := by
    split
    · exact List.forall_mem_singleton.mpr hty
    · exact nofun
  dsimp only
  generalize (if visible = .inside ∧ !decl.anonymous then [(decl.name, ty)] else []) = own at hown
  induction entries generalizing own with
  | nil => exact hown
  | cons entry rest ih =>
      obtain ⟨hentry, hrest⟩ := List.forall_mem_cons.mp hentries
      exact ih hrest _ (hown.insert entry.1.name hentry)

end Bindings

namespace Checker

structure Legible (checker : Checker) : Prop where
  scopes : ∀ scope ∈ checker.scopes, scope.Legible
  returns : ∀ ty ∈ checker.returns, ty.Legible

namespace Legible

variable {checker : Checker} {ty : Ty}

theorem lookup (h : checker.Legible) {name : String} :
    ∀ ty ∈ checker.lookup name, ty.Legible := by
  intro ty hty
  obtain ⟨scope, hscope, hfound⟩ := List.exists_of_findSome?_eq_some hty
  exact (h.scopes scope hscope).find? ty hfound

theorem declare (h : checker.Legible) (name : String) (hty : ty.Legible) :
    (checker.declare name ty).Legible := by
  obtain ⟨_ | ⟨scope, outer⟩, returns⟩ := checker
  · exact h
  · obtain ⟨hscope, houter⟩ := List.forall_mem_cons.mp h.scopes
    exact ⟨List.forall_mem_cons.mpr ⟨hscope.insert name hty, houter⟩, h.returns⟩

theorem aroundBody (h : checker.Legible) (visible : NameScope) (name : String)
    (hty : ty.Legible) : (checker.aroundBody visible name ty).Legible := by
  unfold Checker.aroundBody
  split
  · exact h.declare name hty
  · exact h

theorem openScope (h : checker.Legible) {scope : Bindings Ty} (hscope : scope.Legible) :
    (checker.openScope scope).Legible :=
  ⟨List.forall_mem_cons.mpr ⟨hscope, h.scopes⟩, h.returns⟩

theorem enterFunction (h : checker.Legible) (hty : ty.Legible) :
    (checker.enterFunction ty).Legible :=
  ⟨h.scopes, List.forall_mem_cons.mpr ⟨hty, h.returns⟩⟩

theorem checkResult (h : checker.Legible) (hty : ty.Legible) (span : Span) :
    Legibly (fun _ => True) (checker.checkResult ty span) := by
  obtain ⟨scopes, _ | ⟨declared, outer⟩⟩ := checker
  · trivial
  · simp only [Checker.checkResult]
    split
    · rename_i hdiffers
      rintro clash ⟨⟩
      exact ⟨h.returns declared List.mem_cons_self, hty, hdiffers.2⟩
    · trivial

end Legible

theorem legible_new : Checker.new.Legible := by
  refine ⟨List.forall_mem_singleton.mpr fun entry hentry => ?_, nofun⟩
  obtain ⟨builtin, -, rfl⟩ := List.mem_map.mp hentry
  exact builtin.legible_signature

end Checker

section Annotations

variable {params : List Param}

theorem legibly_paramTys
    (h : ∀ param ∈ params, ∀ written ∈ param.declared, written.ty.Legible) :
    Legibly (fun tys => ∀ ty ∈ tys, ty.Legible) (paramTys params) := by
  induction params with
  | nil => exact nofun
  | cons param rest ih =>
      obtain ⟨hparam, hrest⟩ := List.forall_mem_cons.mp h
      simp only [paramTys]
      split
      · exact legibly_fault rfl _
      · exact legibly_fault rfl _
      · rename_i ty _ hty
        obtain ⟨written, hwritten, rfl⟩ := Option.map_eq_some_iff.mp hty
        exact (ih hrest).bind fun tys htys =>
          legibly_pure (List.forall_mem_cons.mpr ⟨hparam written hwritten, htys⟩)

theorem legibly_bindingTy {name : String} {span : Span} {declared : Option TypeExpr}
    {init : Option Ty} (hdeclared : ∀ written ∈ declared, written.ty.Legible)
    (hinit : ∀ ty ∈ init, ty.Legible) :
    Legibly Ty.Legible (bindingTy name span (declared.map TypeExpr.ty) init) := by
  cases declared with
  | none =>
      cases init with
      | none => exact legibly_fault rfl span
      | some ty => exact hinit ty rfl
  | some written =>
      cases init with
      | none => exact hdeclared written rfl
      | some ty =>
          simp only [Option.map_some, bindingTy]
          split
          · exact hdeclared written rfl
          · rename_i hdiffers
            rintro clash ⟨⟩
            exact ⟨hdeclared written rfl, hinit ty rfl, hdiffers⟩

theorem legible_resultTy {result : Option TypeExpr}
    (h : ∀ written ∈ result, written.ty.Legible) :
    ((result.map TypeExpr.ty).getD .nothing).Legible := by
  cases result with
  | none => exact Ty.legible_nothing
  | some written => exact h written rfl

end Annotations

mutual

theorem checkExpr_legibly : (expr : Expr) → AllAnnotated expr.nodes → (checker : Checker) →
    checker.Legible → Legibly Ty.Legible (checkExpr checker expr).result
  | .literal value mark, h, checker, _ => by
      rw [checkExpr]
      have hvalue : Legibly Ty.Legible (.ok value.ty) := value.legible_ty
      exact hvalue.settle (h _ List.mem_cons_self).1
  | .variable name mark, h, checker, hchecker => by
      rw [checkExpr]
      exact (legibly_orFault hchecker.lookup rfl _).settle (h _ List.mem_cons_self).1
  | .assign name value mark, h, checker, hchecker => by
      obtain ⟨⟨fresh, -⟩, hvalue⟩ := allAnnotated_cons.mp h
      rw [checkExpr]
      cases hfound : checker.lookup name with
      | none => exact legibly_fault rfl _
      | some target =>
          have htarget := hchecker.lookup target hfound
          refine Legibly.settle ?_ fresh
          refine (checkExpr_legibly value hvalue checker hchecker).bind fun actual hactual => ?_
          split
          · exact legibly_pure htarget
          · rename_i hdiffers
            rintro clash ⟨⟩
            exact ⟨htarget, hactual, Ne.symm hdiffers⟩
  | .group inner mark, h, checker, hchecker => by
      obtain ⟨⟨fresh, -⟩, hinner⟩ := allAnnotated_cons.mp h
      rw [checkExpr]
      exact (checkExpr_legibly inner hinner checker hchecker).settle fresh
  | .unary op operand mark, h, checker, hchecker => by
      obtain ⟨⟨fresh, -⟩, hoperand⟩ := allAnnotated_cons.mp h
      rw [checkExpr]
      refine Legibly.settle ?_ fresh
      exact (checkExpr_legibly operand hoperand checker hchecker).bind fun ty hty =>
        legibly_orFault (UnaryOp.legible_resultTy? hty) rfl _
  | .binary op left right mark, h, checker, hchecker => by
      obtain ⟨⟨fresh, -⟩, hparts⟩ := allAnnotated_cons.mp h
      obtain ⟨hleft, hright⟩ := allAnnotated_append.mp hparts
      have hleft := checkExpr_legibly left hleft checker hchecker
      simp only [checkExpr, checkExpr_checker left]
      cases hresult : (checkExpr checker left).result with
      | error e => rwa [hresult] at hleft
      | ok leftTy =>
          refine Legibly.settle ?_ fresh
          exact (checkExpr_legibly right hright checker hchecker).bind fun rightTy _ =>
            legibly_orFault BinaryOp.legible_resultTy? rfl _
  | .call callee args mark, h, checker, hchecker => by
      obtain ⟨⟨fresh, -⟩, hparts⟩ := allAnnotated_cons.mp h
      obtain ⟨hcallee, hargs⟩ := allAnnotated_append.mp hparts
      have hcallee := checkExpr_legibly callee hcallee checker hchecker
      simp only [checkExpr, checkExpr_checker callee]
      cases hresult : (checkExpr checker callee).result with
      | error e => rwa [hresult] at hcallee
      | ok ty =>
          rw [hresult] at hcallee
          cases ty with
          | function params result =>
              obtain ⟨hparams, hty⟩ := Ty.legible_function_iff.mp hcallee
              dsimp only
              split
              · refine Legibly.settle ?_ fresh
                exact (checkArgs_legibly args hargs checker hchecker 1 params hparams).bind
                  fun _ _ => legibly_pure hty
              · exact legibly_fault rfl _
          | _ => exact legibly_fault rfl _
  | .function decl mark, h, checker, hchecker => by
      obtain ⟨⟨fresh, -⟩, hdecl⟩ := allAnnotated_cons.mp h
      rw [checkExpr]
      exact (checkFunction_legibly decl hdecl checker hchecker .inside).1.settle fresh

theorem checkArgs_legibly : (args : List Expr) → AllAnnotated (Expr.allNodes args) →
    (checker : Checker) → checker.Legible → (number : Nat) → (params : List Ty) →
    (∀ param ∈ params, param.Legible) →
    Legibly (fun _ => True) (checkArgs checker number params args).result
  | [], _, _, _, _, _, _ => trivial
  | _ :: _, _, _, _, _, [], _ => trivial
  | arg :: rest, h, checker, hchecker, number, param :: params, hparams => by
      obtain ⟨harg, hrest⟩ := allAnnotated_append.mp h
      obtain ⟨hparam, hparams⟩ := List.forall_mem_cons.mp hparams
      have harg := checkExpr_legibly arg harg checker hchecker
      simp only [checkArgs, checkExpr_checker arg]
      cases hresult : (checkExpr checker arg).result with
      | error e => rwa [hresult] at harg
      | ok ty =>
          rw [hresult] at harg
          dsimp only
          split
          · exact checkArgs_legibly rest hrest checker hchecker (number + 1) params hparams
          · rename_i hmisfit
            rintro clash ⟨⟩
            exact ⟨hparam, harg, (not_or.mp hmisfit).2⟩

theorem checkFunction_legibly : (decl : FnDecl) → AllAnnotated decl.nodes → (checker : Checker) →
    checker.Legible → (visible : NameScope) →
    Legibly Ty.Legible (checkFunction checker visible decl).result ∧
      (checkFunction checker visible decl).checker.Legible
  | ⟨name, anonymous, params, result, body, mark⟩, h, checker, hchecker, visible => by
      obtain ⟨⟨fresh, hannotations⟩, hbody⟩ := allAnnotated_cons.mp h
      have hparams := @legibly_paramTys params fun param hparam written hwritten =>
        hannotations written (List.mem_append_left _
          (List.mem_filterMap.mpr ⟨param, hparam, hwritten⟩))
      have hresult := @legible_resultTy result fun written hwritten =>
        hannotations written (List.mem_append_right _ (Option.mem_toList.mpr hwritten))
      rw [checkFunction_checker]
      simp only [checkFunction]
      cases htys : paramTys params with
      | error e =>
          rw [htys] at hparams
          exact ⟨hparams, hchecker⟩
      | ok tys =>
          rw [htys] at hparams
          have hty := (Ty.legible_function_iff.mpr ⟨hparams, hresult⟩).settle fresh
          have haround := hchecker.aroundBody visible name hty
          refine ⟨Legibly.map (checkStmts_legibly body hbody _ ?_).1 fun _ _ => hty, haround⟩
          exact (haround.openScope (legible_bodyScope hty hparams)).enterFunction hresult

theorem checkStmt_legibly : (stmt : Stmt) → AllAnnotated stmt.nodes → (checker : Checker) →
    checker.Legible → Legibly (fun _ => True) (checkStmt checker stmt).result ∧
      (checkStmt checker stmt).checker.Legible
  | .expression expr, h, checker, hchecker => by
      obtain ⟨-, hexpr⟩ := allAnnotated_cons.mp h
      simp only [checkStmt, checkExpr_checker expr]
      exact ⟨(checkExpr_legibly expr hexpr checker hchecker).map fun _ _ => trivial, hchecker⟩
  | .binding name declared none mark, h, checker, hchecker => by
      obtain ⟨⟨fresh, hdeclared⟩, -⟩ := allAnnotated_cons.mp h
      have hty := @legibly_bindingTy name mark.span declared none
        (fun written hwritten => hdeclared written (Option.mem_toList.mpr hwritten)) nofun
      simp only [checkStmt]
      cases hresult : bindingTy name mark.span (declared.map TypeExpr.ty) none with
      | error e =>
          rw [hresult] at hty
          exact ⟨hty, hchecker⟩
      | ok ty =>
          rw [hresult] at hty
          exact ⟨trivial, hchecker.declare name (Ty.Legible.settle hty fresh)⟩
  | .binding name declared (some init) mark, h, checker, hchecker => by
      obtain ⟨⟨fresh, hdeclared⟩, hinit⟩ := allAnnotated_cons.mp h
      have hty : Legibly Ty.Legible ((checkExpr checker init).result >>= fun ty =>
          bindingTy name mark.span (declared.map TypeExpr.ty) (some ty)) :=
        (checkExpr_legibly init hinit checker hchecker).bind fun ty hty => legibly_bindingTy
          (fun written hwritten => hdeclared written (Option.mem_toList.mpr hwritten))
          (by simpa using hty)
      simp only [checkStmt, checkExpr_checker init]
      cases hresult : (checkExpr checker init).result >>= fun ty =>
          bindingTy name mark.span (declared.map TypeExpr.ty) (some ty) with
      | error e =>
          rw [hresult] at hty
          exact ⟨hty, hchecker⟩
      | ok ty =>
          rw [hresult] at hty
          exact ⟨trivial, hchecker.declare name (Ty.Legible.settle hty fresh)⟩
  | .block block, h, checker, hchecker => by
      obtain ⟨-, hblock⟩ := allAnnotated_cons.mp h
      simp only [checkStmt, checkBlock_checker block]
      exact ⟨checkBlock_legibly block hblock checker hchecker, hchecker⟩
  | .conditional condition thenBlock none span, h, checker, hchecker => by
      obtain ⟨-, hparts⟩ := allAnnotated_cons.mp h
      obtain ⟨hcondition, hthen⟩ := allAnnotated_append.mp hparts
      have hcondition := checkExpr_legibly condition hcondition checker hchecker
      simp only [checkStmt, checkExpr_checker condition, checkBlock_checker thenBlock]
      cases hresult : (checkExpr checker condition).result with
      | error e =>
          rw [hresult] at hcondition
          exact ⟨hcondition, hchecker⟩
      | ok => exact ⟨checkBlock_legibly thenBlock hthen checker hchecker, hchecker⟩
  | .conditional condition thenBlock (some otherwise) span, h, checker, hchecker => by
      obtain ⟨-, hparts⟩ := allAnnotated_cons.mp h
      obtain ⟨hcondition, hparts⟩ := allAnnotated_append.mp hparts
      obtain ⟨hthen, hotherwise⟩ := allAnnotated_append.mp hparts
      have hcondition := checkExpr_legibly condition hcondition checker hchecker
      have hthen := checkBlock_legibly thenBlock hthen checker hchecker
      simp only [checkStmt, checkExpr_checker condition, checkBlock_checker thenBlock]
      cases hresult : (checkExpr checker condition).result with
      | error e =>
          rw [hresult] at hcondition
          exact ⟨hcondition, hchecker⟩
      | ok =>
          dsimp only
          cases hresult : (checkBlock checker thenBlock).result with
          | error e =>
              rw [hresult] at hthen
              exact ⟨hthen, hchecker⟩
          | ok => exact checkStmt_legibly otherwise hotherwise checker hchecker
  | .loop condition body span, h, checker, hchecker => by
      obtain ⟨-, hparts⟩ := allAnnotated_cons.mp h
      obtain ⟨hcondition, hbody⟩ := allAnnotated_append.mp hparts
      have hcondition := checkExpr_legibly condition hcondition checker hchecker
      simp only [checkStmt, checkExpr_checker condition, checkBlock_checker body]
      cases hresult : (checkExpr checker condition).result with
      | error e =>
          rw [hresult] at hcondition
          exact ⟨hcondition, hchecker⟩
      | ok => exact ⟨checkBlock_legibly body hbody checker hchecker, hchecker⟩
  | .function decl, h, checker, hchecker => by
      obtain ⟨-, hdecl⟩ := allAnnotated_cons.mp h
      obtain ⟨hresult, hafter⟩ := checkFunction_legibly decl hdecl checker hchecker .around
      exact ⟨hresult.map fun _ _ => trivial, hafter⟩
  | .ret none span, _, checker, hchecker => ⟨hchecker.checkResult Ty.legible_nothing span, hchecker⟩
  | .ret (some value) span, h, checker, hchecker => by
      obtain ⟨-, hvalue⟩ := allAnnotated_cons.mp h
      simp only [checkStmt, checkExpr_checker value]
      exact ⟨(checkExpr_legibly value hvalue checker hchecker).bind fun ty hty =>
        hchecker.checkResult hty span, hchecker⟩

theorem checkStmts_legibly : (stmts : List Stmt) → AllAnnotated (Stmt.allNodes stmts) →
    (checker : Checker) → checker.Legible →
    Legibly (fun _ => True) (checkStmts checker stmts).result ∧
      (checkStmts checker stmts).checker.Legible
  | [], _, _, hchecker => ⟨trivial, hchecker⟩
  | stmt :: rest, h, checker, hchecker => by
      obtain ⟨hstmt, hrest⟩ := allAnnotated_append.mp h
      obtain ⟨hresult, hafter⟩ := checkStmt_legibly stmt hstmt checker hchecker
      simp only [checkStmts]
      cases hstmt : (checkStmt checker stmt).result with
      | error e =>
          rw [hstmt] at hresult
          exact ⟨hresult, hafter⟩
      | ok => exact checkStmts_legibly rest hrest _ hafter

theorem checkBlock_legibly : (block : Block) → AllAnnotated block.nodes → (checker : Checker) →
    checker.Legible → Legibly (fun _ => True) (checkBlock checker block).result
  | ⟨statements, _⟩, h, _, hchecker =>
      (checkStmts_legibly statements h _ (hchecker.openScope (List.forall_mem_nil _))).1

end

mutual

theorem TypeExpr.Legible.ty : {written : TypeExpr} → written.Legible → written.ty.Legible
  | .named _ _, h => Ty.legible_ofName h.name
  | .function params none _, h => by
      rw [TypeExpr.ty, Ty.legible_function_iff]
      exact ⟨TypeExpr.legible_tys fun _ hmem => h.param hmem, Ty.legible_nothing⟩
  | .function params (some result) _, h => by
      rw [TypeExpr.ty, Ty.legible_function_iff]
      exact ⟨TypeExpr.legible_tys fun _ hmem => h.param hmem, (h.behind rfl).ty⟩

theorem TypeExpr.legible_tys : {written : List TypeExpr} → (∀ a ∈ written, a.Legible) →
    ∀ ty ∈ TypeExpr.tys written, ty.Legible
  | [], _ => List.forall_mem_nil _
  | _ :: _, h =>
      have h := List.forall_mem_cons.mp h
      List.forall_mem_cons.mpr ⟨h.1.ty, TypeExpr.legible_tys h.2⟩

end

theorem Program.allAnnotated {source : String} {unnamed : Nat} {program : Program}
    (h : (ofSource source unnamed).result = .ok program) : AllAnnotated program.nodes := by
  obtain ⟨tokens, hlayout, hwritten⟩ := exists_layout h
  refine fun node hnode => ⟨ofSource_fresh h node hnode, fun written hmem => ?_⟩
  have hsymbols : ∀ symbol ∈ node.symbols, symbol.Legible :=
    fun symbol hsymbol => hlayout.legible symbol (hwritten node hnode hsymbol)
  exact (Node.legible_annotations hsymbols written hmem).ty

theorem Program.ofSource_ne_typecheck {source : String} {unnamed : Nat} {e : TypeError} :
    (ofSource source unnamed).result ≠ .error (.typecheck e) := by
  unfold ofSource
  split
  · simp
  · dsimp only
    split <;> simp

/-- A type that an annotation means in some program that is read. -/
def Ty.IsAnnotated (ty : Ty) : Prop :=
  ∃ source unnamed program, (Program.ofSource source unnamed).result = .ok program ∧
    ∃ node ∈ program.nodes, ∃ written ∈ node.annotations, written.ty = ty

theorem Ty.IsAnnotated.legible {ty : Ty} (h : ty.IsAnnotated) : ty.Legible := by
  obtain ⟨source, unnamed, program, hread, node, hnode, written, hwritten, rfl⟩ := h
  exact (Program.allAnnotated hread node hnode).2 written hwritten

namespace Session

variable {session : Session}

def Legible (session : Session) : Prop := ∀ checker ∈ session.checker, checker.Legible

theorem Legible.check (h : session.Legible) {program : Program}
    (hprogram : AllAnnotated program.nodes) :
    (session.check program).1.Legible ∧ Legibly (fun _ => True) (session.check program).2 := by
  unfold Session.check
  cases hchecker : session.checker with
  | none => exact ⟨h, trivial⟩
  | some checker =>
      obtain ⟨hresult, hafter⟩ :=
        checkStmts_legibly program.statements hprogram checker (h checker hchecker)
      dsimp only [Program.check]
      cases hchecked : (checkStmts checker program.statements).result with
      | error e =>
          rw [hchecked] at hresult
          exact ⟨h, hresult⟩
      | ok => exact ⟨fun _ hmem => Option.some.inj hmem ▸ hafter, trivial⟩

theorem Legible.compile (h : session.Legible) (source : String) :
    (session.compile source).1.Legible ∧
      ∀ e, (session.compile source).2 = .error (.typecheck e) → e.Legible := by
  simp only [Session.compile]
  split
  · rename_i hread
    exact ⟨h, fun e he => absurd (hread.trans he) Program.ofSource_ne_typecheck⟩
  · rename_i program hread
    have hsession : Legible ({ session with
        unnamed := (Program.ofSource source session.unnamed).unnamed }.observe
          (Program.ofSource source session.unnamed).events) := h
    obtain ⟨hafter, hresult⟩ := hsession.check (Program.allAnnotated hread)
    split
    · rename_i heq
      rw [heq] at hafter hresult
      exact ⟨hafter, fun e he => CompileError.typecheck.inj (Except.error.inj he) ▸ hresult⟩
    · rename_i heq
      rw [heq] at hafter
      refine ⟨hafter, fun e he => ?_⟩
      cases he

theorem Legible.eval (h : session.Legible) (fuel : Nat) (source : String) :
    (session.eval fuel source).1.Legible := by
  obtain ⟨hcompiled, -⟩ := h.compile source
  unfold Session.eval
  split
  · rename_i heq
    rwa [heq] at hcompiled
  · rename_i heq
    rw [heq] at hcompiled
    unfold run
    dsimp only
    split <;> exact hcompiled

theorem Arises.legible (h : session.Arises) : session.Legible := by
  have hnew : ∀ check : Bool, ∀ checker ∈ (if check then some Checker.new else none),
      checker.Legible := by
    intro check checker hmem
    cases check with
    | false => cases hmem
    | true => exact Option.some.inj hmem ▸ Checker.legible_new
  induction h with
  | new check output clock => exact hnew check
  | eval _ fuel source ih => exact ih.eval fuel source
  | check _ check _ => exact hnew check
  | unnamed _ _ ih => exact ih

end Session

/-- The type of an annotation reads back from its text. So types are told apart by their texts, and
no message says that a name was declared as what it was initialized with. -/
theorem Ty.text_reads_back :
    (∀ ty : Ty, ty.IsAnnotated → ofText? ty.text = some ty) ∧
      (∀ ty other : Ty, ty.IsAnnotated → other.IsAnnotated → (ty.text = other.text ↔ ty = other)) ∧
      ∀ session : Session, session.Arises → ∀ source name declared init span,
        (session.compile source).2 =
          .error (.typecheck ⟨.initializer name declared init, span⟩) →
        declared.text ≠ init.text := by
  refine ⟨fun ty h => ofText?_text h.legible,
    fun ty other h h' => text_inj h.legible h'.legible,
    fun session hsession source name declared init span herror => ?_⟩
  exact ((hsession.legible.compile source).2 _ herror).text_ne (declared, init) rfl

/-- A function that takes a function, with a type that is not one of the language's own. -/
def Ty.nested : Ty := .function [.function [.user "A", .nothing] .nothing, .int] .nothing

/-- The result of the inner function is left out in the source text and stands in the message. -/
theorem Ty.nested_reads_back :
    let source := "let n: int let f: fn(fn(A, none), int) = print"
    let session := Session.new true .unbounded fun _ => 0
    let init : Ty := .function [.nothing] .nothing
    nested.text = "fn(fn(A, none) -> none, int) -> none" ∧ nested.IsAnnotated ∧
      int.IsAnnotated ∧ ofText? nested.text = some nested ∧
      (nested.text = int.text ↔ nested = int) ∧ session.Arises ∧
      (session.compile source).2 =
        .error (.typecheck ⟨.initializer "f" nested init, ⟨11, 35, 1⟩⟩) ∧
      nested.text ≠ init.text := by
  intro source session init
  have hread : (Program.ofSource source 0).result = .ok (.read source) :=
    Program.ofSource_read (by decide +kernel)
  have hannotated : nested.IsAnnotated := ⟨source, 0, _, hread, by decide +kernel⟩
  have hint : int.IsAnnotated := ⟨source, 0, _, hread, by decide +kernel⟩
  have harises : session.Arises := .new true _ _
  have herror : (session.compile source).2 =
      .error (.typecheck ⟨.initializer "f" nested init, ⟨11, 35, 1⟩⟩) := by decide +kernel
  obtain ⟨hback, hsame, hmessage⟩ := text_reads_back
  exact ⟨by decide +kernel, hannotated, hint, hback nested hannotated,
    hsame nested int hannotated hint, harises, herror,
    hmessage session harises source "f" nested init _ herror⟩

end Scriptlet
