import Scriptlet.Proofs.Typing.Complete
import Scriptlet.Proofs.Typing.Slots
import Scriptlet.Proofs.Tree.Parsed

/-! Every fresh tree becomes typed or stuck when some of its slots are filled, in any context.
So the rules leave nothing open, and with them it is known what a check answers. -/

namespace Scriptlet

section Decided

open Relabel (clears_untyped)

theorem Mark.fresh_cases {mark : Mark} (h : mark.ty.isNone) : ∃ span, mark = ⟨span, none⟩ := by
  obtain ⟨span, _ | ty⟩ := mark
  · exact ⟨span, rfl⟩
  · simp at h

theorem params_decided (params : List Param) :
    (∀ param ∈ params, param.ty ≠ .nothing) ∨
      ∃ accepted param others, params = accepted ++ param :: others ∧
        (∀ param ∈ accepted, param.ty ≠ .nothing) ∧ param.ty = .nothing := by
  induction params with
  | nil => exact .inl nofun
  | cons first rest ih =>
      by_cases huntyped : first.ty = .nothing
      · exact .inr ⟨[], first, rest, rfl, nofun, huntyped⟩
      · obtain hwritten | ⟨accepted, param, others, rfl, haccepted, hparam⟩ := ih
        · exact .inl (List.forall_mem_cons.mpr ⟨huntyped, hwritten⟩)
        · exact .inr ⟨first :: accepted, param, others, rfl,
            List.forall_mem_cons.mpr ⟨huntyped, haccepted⟩, hparam⟩

theorem Context.result_decided (context : Context) (ty : Ty) :
    (∀ declared ∈ context.result, declared = .nothing ∨ declared = ty) ∨
      ∃ declared, context.result = some declared ∧ ¬(declared = .nothing ∨ declared = ty) := by
  cases hresult : context.result with
  | none => exact .inl nofun
  | some declared =>
      by_cases hfits : declared = .nothing ∨ declared = ty
      · exact .inl (by simpa using hfits)
      · exact .inr ⟨declared, rfl, hfits⟩

mutual

theorem Expr.decided : (expr : Expr) → Fresh expr.nodes → (context : Context) →
    (∃ typed ty, typed.relabel .untyped = expr ∧ HasType context typed ty) ∨
      ∃ stuck e, stuck.relabel .untyped = expr ∧ ExprStuck context stuck e
  | .literal value mark, h, context => by
      simp only [Expr.nodes, Node.isFresh, Expr.mark, fresh_cons] at h
      obtain ⟨span, rfl⟩ := Mark.fresh_cases h.1
      exact .inl ⟨.literal value ⟨span, some value.ty⟩, value.ty, rfl, .literal rfl⟩
  | .variable name mark, h, context => by
      simp only [Expr.nodes, Node.isFresh, Expr.mark, fresh_cons] at h
      obtain ⟨span, rfl⟩ := Mark.fresh_cases h.1
      cases hfound : context.types name with
      | some ty => exact .inl ⟨.variable name ⟨span, some ty⟩, ty, rfl, .read hfound rfl⟩
      | none => exact .inr ⟨.variable name ⟨span, none⟩, _, rfl, .undefined hfound rfl⟩
  | .assign name value mark, h, context => by
      simp only [Expr.nodes, Node.isFresh, Expr.mark, fresh_cons] at h
      obtain ⟨span, rfl⟩ := Mark.fresh_cases h.1
      cases hfound : context.types name with
      | none =>
          refine .inr ⟨.assign name value ⟨span, none⟩, _, ?_, .undeclared hfound h.2 rfl⟩
          rw [Expr.relabel, clears_untyped.expr h.2]
          rfl
      | some target =>
          obtain ⟨value, ty, rfl, hvalue⟩ | ⟨value, e, rfl, hvalue⟩ := value.decided h.2 context
          · by_cases hsame : ty = target
            · exact .inl ⟨.assign name value ⟨span, some target⟩, target, rfl,
                .assign hfound (hsame ▸ hvalue) rfl⟩
            · exact .inr ⟨.assign name value ⟨span, none⟩, _, rfl,
                .assignment hfound hvalue hsame rfl⟩
          · exact .inr ⟨.assign name value ⟨span, none⟩, e, rfl, .assigned hfound hvalue rfl⟩
  | .group inner mark, h, context => by
      simp only [Expr.nodes, Node.isFresh, Expr.mark, fresh_cons] at h
      obtain ⟨span, rfl⟩ := Mark.fresh_cases h.1
      obtain ⟨inner, ty, rfl, hinner⟩ | ⟨inner, e, rfl, hinner⟩ := inner.decided h.2 context
      · exact .inl ⟨.group inner ⟨span, some ty⟩, ty, rfl, .group hinner rfl⟩
      · exact .inr ⟨.group inner ⟨span, none⟩, e, rfl, .group hinner rfl⟩
  | .unary op operand mark, h, context => by
      simp only [Expr.nodes, Node.isFresh, Expr.mark, fresh_cons] at h
      obtain ⟨span, rfl⟩ := Mark.fresh_cases h.1
      obtain ⟨operand, operandTy, rfl, hoperand⟩ | ⟨operand, e, rfl, hoperand⟩ :=
        operand.decided h.2 context
      · by_cases hmakes : ∃ ty, op.Makes operandTy ty
        · obtain ⟨ty, hmakes⟩ := hmakes
          exact .inl ⟨.unary op operand ⟨span, some ty⟩, ty, rfl, .unary hoperand hmakes rfl⟩
        · exact .inr ⟨.unary op operand ⟨span, none⟩, _, rfl,
            .operand hoperand (not_exists.mp hmakes) rfl⟩
      · exact .inr ⟨.unary op operand ⟨span, none⟩, e, rfl, .unary hoperand rfl⟩
  | .binary op left right mark, h, context => by
      simp only [Expr.nodes, Node.isFresh, Expr.mark, fresh_cons, fresh_append] at h
      obtain ⟨hmark, hfreshLeft, hfreshRight⟩ := h
      obtain ⟨span, rfl⟩ := Mark.fresh_cases hmark
      obtain ⟨left, leftTy, rfl, hleft⟩ | ⟨left, e, rfl, hleft⟩ := left.decided hfreshLeft context
      · obtain ⟨right, rightTy, rfl, hright⟩ | ⟨right, e, rfl, hright⟩ :=
          right.decided hfreshRight context
        · by_cases hmakes : ∃ ty, op.Makes leftTy rightTy ty
          · obtain ⟨ty, hmakes⟩ := hmakes
            exact .inl ⟨.binary op left right ⟨span, some ty⟩, ty, rfl,
              .binary hleft hright hmakes rfl⟩
          · exact .inr ⟨.binary op left right ⟨span, none⟩, _, rfl,
              .operands hleft hright (not_exists.mp hmakes) rfl⟩
        · exact .inr ⟨.binary op left right ⟨span, none⟩, e, rfl, .right hleft hright rfl⟩
      · refine .inr ⟨.binary op left right ⟨span, none⟩, e, ?_, .left hleft hfreshRight rfl⟩
        rw [Expr.relabel, clears_untyped.expr hfreshRight]
        rfl
  | .call callee args mark, h, context => by
      simp only [Expr.nodes, Node.isFresh, Expr.mark, fresh_cons, fresh_append] at h
      obtain ⟨hmark, hfreshCallee, hfreshArgs⟩ := h
      obtain ⟨span, rfl⟩ := Mark.fresh_cases hmark
      have hsame : Expr.relabelAll .untyped args = args := by
        rw [Expr.relabelAll_eq_map, clears_untyped.exprs hfreshArgs]
      obtain ⟨callee, ty, rfl, hcallee⟩ | ⟨callee, e, rfl, hcallee⟩ :=
        callee.decided hfreshCallee context
      · by_cases hfunction : ∃ params result, ty = .function params result
        · obtain ⟨params, result, rfl⟩ := hfunction
          by_cases hlength : params.length = args.length
          · obtain ⟨args, rfl, hargs⟩ | ⟨args, e, rfl, hargs⟩ :=
              Expr.allDecided args hfreshArgs context 1 params hlength
            · exact .inl ⟨.call callee args ⟨span, some result⟩, result, rfl,
                .call hcallee hargs rfl⟩
            · refine .inr ⟨.call callee args ⟨span, none⟩, e, rfl, .args hcallee ?_ hargs rfl⟩
              simpa using hlength
          · refine .inr ⟨.call callee args ⟨span, none⟩, _, ?_,
              .arity hcallee hlength hfreshArgs rfl⟩
            rw [Expr.relabel, hsame]
            rfl
        · refine .inr ⟨.call callee args ⟨span, none⟩, _, ?_,
            .notCallable hcallee (fun params result heq => hfunction ⟨params, result, heq⟩)
              hfreshArgs rfl⟩
          rw [Expr.relabel, hsame]
          rfl
      · refine .inr ⟨.call callee args ⟨span, none⟩, e, ?_, .callee hcallee hfreshArgs rfl⟩
        rw [Expr.relabel, hsame]
        rfl
  | .function decl mark, h, context => by
      simp only [Expr.nodes, Node.isFresh, Expr.mark, fresh_cons] at h
      obtain ⟨span, rfl⟩ := Mark.fresh_cases h.1
      obtain ⟨decl, rfl, hdecl⟩ | ⟨decl, e, rfl, hdecl⟩ := decl.decided h.2 context .inside
      · exact .inl ⟨.function decl ⟨span, some decl.ty⟩, decl.ty, rfl, .function hdecl rfl⟩
      · exact .inr ⟨.function decl ⟨span, none⟩, e, rfl, .function hdecl rfl⟩

theorem Expr.allDecided : (args : List Expr) → Fresh (Expr.allNodes args) →
    (context : Context) → (number : Nat) → (params : List Ty) → params.length = args.length →
    (∃ typed, Expr.relabelAll .untyped typed = args ∧ HaveTypes context typed params) ∨
      ∃ stuck e, Expr.relabelAll .untyped stuck = args ∧ ArgsStuck context number stuck params e
  | [], _, context, number, params, hlength => by
      obtain rfl : params = [] := List.eq_nil_of_length_eq_zero hlength
      exact .inl ⟨[], rfl, .nil⟩
  | arg :: rest, h, context, number, [], hlength => by simp at hlength
  | arg :: rest, h, context, number, param :: params, hlength => by
      simp only [Expr.allNodes, fresh_append] at h
      obtain ⟨hfreshArg, hfreshRest⟩ := h
      have hrest : Expr.relabelAll .untyped rest = rest := by
        rw [Expr.relabelAll_eq_map, clears_untyped.exprs hfreshRest]
      obtain ⟨arg, ty, rfl, harg⟩ | ⟨arg, e, rfl, harg⟩ := arg.decided hfreshArg context
      · by_cases hfits : param = .nothing ∨ param = ty
        · obtain ⟨rest, rfl, hargs⟩ | ⟨rest, e, rfl, hargs⟩ :=
            Expr.allDecided rest hfreshRest context (number + 1) params (Nat.succ.inj hlength)
          · exact .inl ⟨arg :: rest, rfl, .cons harg hfits hargs⟩
          · exact .inr ⟨arg :: rest, e, rfl, .later harg hfits hargs⟩
        · exact .inr ⟨arg :: rest, _, by rw [Expr.relabelAll, hrest],
            .mismatch harg hfits hfreshRest⟩
      · exact .inr ⟨arg :: rest, e, by rw [Expr.relabelAll, hrest], .here harg hfreshRest⟩

theorem FnDecl.decided : (decl : FnDecl) → Fresh decl.nodes → (context : Context) →
    (visible : NameScope) →
    (∃ typed, typed.relabel .untyped = decl ∧ FnTyped context visible typed) ∨
      ∃ stuck e, stuck.relabel .untyped = decl ∧ FnStuck context visible stuck e
  | ⟨name, anonymous, params, result, body, mark⟩, h, context, visible => by
      simp only [FnDecl.nodes, Node.isFresh, fresh_cons] at h
      obtain ⟨hmark, hfresh⟩ := h
      obtain ⟨span, rfl⟩ := Mark.fresh_cases hmark
      let typed : List Stmt → FnDecl := fun body =>
        let decl : FnDecl := ⟨name, anonymous, params, result, body, ⟨span, none⟩⟩
        { decl with mark := ⟨span, some decl.ty⟩ }
      have htyped (body : List Stmt) : (typed body).relabel .untyped =
          ⟨name, anonymous, params, result, Stmt.relabelAll .untyped body, ⟨span, none⟩⟩ := by
        rw [FnDecl.relabel, clears_untyped.name, clears_untyped.params, clears_untyped.written?]
        rfl
      obtain hwritten | ⟨accepted, param, others, hsplit, haccepted, huntyped⟩ :=
        params_decided params
      · obtain ⟨body, rfl, hbody⟩ | ⟨body, e, rfl, hbody⟩ :=
          Stmt.allDecided body hfresh (context.inBody visible (typed []))
        · exact .inl ⟨typed body, htyped body, .intro hwritten rfl hbody⟩
        · exact .inr ⟨typed body, e, htyped body, .body hwritten rfl hbody⟩
      · refine .inr ⟨⟨name, anonymous, params, result, body, ⟨span, none⟩⟩, _, ?_,
          .parameter hsplit haccepted huntyped rfl hfresh⟩
        rw [FnDecl.relabel, clears_untyped.name, clears_untyped.params,
          clears_untyped.written?, Stmt.relabelAll_eq_map, clears_untyped.stmts hfresh]
        rfl

theorem Stmt.decided : (stmt : Stmt) → Fresh stmt.nodes → (context : Context) →
    (∃ typed, typed.relabel .untyped = stmt ∧ StmtTyped context typed) ∨
      ∃ stuck e, stuck.relabel .untyped = stmt ∧ StmtStuck context stuck e
  | .expression expr, h, context => by
      simp only [Stmt.nodes, fresh_cons] at h
      obtain ⟨expr, ty, rfl, hexpr⟩ | ⟨expr, e, rfl, hexpr⟩ := expr.decided h.2 context
      · exact .inl ⟨.expression expr, rfl, .expression hexpr⟩
      · exact .inr ⟨.expression expr, e, rfl, .expression hexpr⟩
  | .binding name declared none mark, h, context => by
      simp only [Stmt.nodes, Node.isFresh, fresh_cons] at h
      obtain ⟨span, rfl⟩ := Mark.fresh_cases h.1
      cases declared with
      | none => exact .inr ⟨.binding name none none ⟨span, none⟩, _, rfl, .untyped rfl⟩
      | some written =>
          refine .inl ⟨.binding name (some written) none ⟨span, some written.ty⟩, ?_,
            .uninitialized rfl⟩
          rw [Stmt.relabel, clears_untyped.written?]
          rfl
  | .binding name declared (some init) mark, h, context => by
      simp only [Stmt.nodes, Node.isFresh, fresh_cons] at h
      obtain ⟨hmark, hfresh⟩ := h
      obtain ⟨span, rfl⟩ := Mark.fresh_cases hmark
      have hbinding (init : Expr) (slot : Option Ty) :
          (Stmt.binding name declared (some init) ⟨span, slot⟩).relabel .untyped =
            .binding name declared (some (init.relabel .untyped)) ⟨span, none⟩ := by
        rw [Stmt.relabel, clears_untyped.written?]
        rfl
      obtain ⟨init, ty, rfl, hinit⟩ | ⟨init, e, rfl, hinit⟩ := init.decided hfresh context
      · cases declared with
        | none => exact .inl ⟨_, hbinding init (some ty), .binding hinit (by simp) rfl⟩
        | some written =>
            by_cases hsame : written.ty = ty
            · exact .inl ⟨_, hbinding init (some ty), .binding hinit (by simp [hsame]) rfl⟩
            · exact .inr ⟨_, _, hbinding init none, .initializer hinit hsame rfl⟩
      · exact .inr ⟨_, e, hbinding init none, .init hinit rfl⟩
  | .block block, h, context => by
      simp only [Stmt.nodes, fresh_cons] at h
      obtain ⟨block, rfl, hblock⟩ | ⟨block, e, rfl, hblock⟩ := block.decided h.2 context
      · exact .inl ⟨.block block, rfl, .block hblock⟩
      · exact .inr ⟨.block block, e, rfl, .block hblock⟩
  | .conditional condition thenBlock none span, h, context => by
      simp only [Stmt.nodes, fresh_cons, fresh_append] at h
      obtain ⟨_, hfreshCondition, hfreshThen⟩ := h
      obtain ⟨condition, ty, rfl, hcondition⟩ | ⟨condition, e, rfl, hcondition⟩ :=
        condition.decided hfreshCondition context
      · obtain ⟨thenBlock, rfl, hthen⟩ | ⟨thenBlock, e, rfl, hthen⟩ :=
          thenBlock.decided hfreshThen context
        · exact .inl ⟨.conditional condition thenBlock none span, rfl,
            .conditional hcondition hthen⟩
        · exact .inr ⟨.conditional condition thenBlock none span, e, rfl,
            .thenBlock hcondition hthen (by simp)⟩
      · refine .inr ⟨.conditional condition thenBlock none span, e, ?_,
          .condition hcondition hfreshThen (by simp)⟩
        rw [Stmt.relabel, clears_untyped.block hfreshThen]
        rfl
  | .conditional condition thenBlock (some otherwise) span, h, context => by
      simp only [Stmt.nodes, fresh_cons, fresh_append] at h
      obtain ⟨hbranch, hfreshCondition, hfreshThen, hfreshElse⟩ := h
      obtain ⟨condition, ty, rfl, hcondition⟩ | ⟨condition, e, rfl, hcondition⟩ :=
        condition.decided hfreshCondition context
      · obtain ⟨thenBlock, rfl, hthen⟩ | ⟨thenBlock, e, rfl, hthen⟩ :=
          thenBlock.decided hfreshThen context
        · obtain ⟨otherwise, rfl, helse⟩ | ⟨otherwise, e, rfl, helse⟩ :=
            otherwise.decided hfreshElse context
          · refine .inl ⟨.conditional condition thenBlock (some otherwise) span, rfl,
              .alternative hcondition hthen ?_ helse⟩
            rw [← Stmt.isBranch_relabel .untyped]
            exact hbranch
          · exact .inr ⟨.conditional condition thenBlock (some otherwise) span, e, rfl,
              .otherwise hcondition hthen helse⟩
        · refine .inr ⟨.conditional condition thenBlock (some otherwise) span, e, ?_,
            .thenBlock hcondition hthen (by simpa using hfreshElse)⟩
          rw [Stmt.relabel, Stmt.relabel?, clears_untyped.stmt hfreshElse]
          rfl
      · refine .inr ⟨.conditional condition thenBlock (some otherwise) span, e, ?_,
          .condition hcondition hfreshThen (by simpa using hfreshElse)⟩
        rw [Stmt.relabel, Stmt.relabel?, clears_untyped.block hfreshThen,
          clears_untyped.stmt hfreshElse]
        rfl
  | .loop condition body span, h, context => by
      simp only [Stmt.nodes, fresh_cons, fresh_append] at h
      obtain ⟨_, hfreshCondition, hfreshBody⟩ := h
      obtain ⟨condition, ty, rfl, hcondition⟩ | ⟨condition, e, rfl, hcondition⟩ :=
        condition.decided hfreshCondition context
      · obtain ⟨body, rfl, hbody⟩ | ⟨body, e, rfl, hbody⟩ := body.decided hfreshBody context
        · exact .inl ⟨.loop condition body span, rfl, .loop hcondition hbody⟩
        · exact .inr ⟨.loop condition body span, e, rfl, .body hcondition hbody⟩
      · refine .inr ⟨.loop condition body span, e, ?_, .loop hcondition hfreshBody⟩
        rw [Stmt.relabel, clears_untyped.block hfreshBody]
        rfl
  | .function decl, h, context => by
      simp only [Stmt.nodes, fresh_cons] at h
      obtain ⟨decl, rfl, hdecl⟩ | ⟨decl, e, rfl, hdecl⟩ := decl.decided h.2 context .around
      · exact .inl ⟨.function decl, rfl, .function hdecl⟩
      · exact .inr ⟨.function decl, e, rfl, .function hdecl⟩
  | .ret none span, _, context => by
      obtain hfits | ⟨declared, hresult, hmisfit⟩ := context.result_decided .nothing
      · exact .inl ⟨.ret none span, rfl,
          .finish fun declared h => or_self_iff.mp (hfits declared h)⟩
      · exact .inr ⟨.ret none span, _, rfl, .finish hresult fun h => hmisfit (.inl h)⟩
  | .ret (some value) span, h, context => by
      simp only [Stmt.nodes, fresh_cons] at h
      obtain ⟨value, ty, rfl, hvalue⟩ | ⟨value, e, rfl, hvalue⟩ := value.decided h.2 context
      · obtain hfits | ⟨declared, hresult, hmisfit⟩ := context.result_decided ty
        · exact .inl ⟨.ret (some value) span, rfl, .ret hvalue hfits⟩
        · exact .inr ⟨.ret (some value) span, _, rfl, .ret hvalue hresult hmisfit⟩
      · exact .inr ⟨.ret (some value) span, e, rfl, .value hvalue⟩

theorem Stmt.allDecided : (stmts : List Stmt) → Fresh (Stmt.allNodes stmts) →
    (context : Context) →
    (∃ typed, Stmt.relabelAll .untyped typed = stmts ∧ StmtsTyped context typed) ∨
      ∃ stuck e, Stmt.relabelAll .untyped stuck = stmts ∧ StmtsStuck context stuck e
  | [], _, _ => .inl ⟨[], rfl, .nil⟩
  | stmt :: rest, h, context => by
      simp only [Stmt.allNodes, fresh_append] at h
      obtain ⟨hfreshStmt, hfreshRest⟩ := h
      obtain ⟨stmt, rfl, hstmt⟩ | ⟨stmt, e, rfl, hstmt⟩ := stmt.decided hfreshStmt context
      · obtain ⟨rest, rfl, hrest⟩ | ⟨rest, e, rfl, hrest⟩ :=
          Stmt.allDecided rest hfreshRest (context.after stmt)
        · exact .inl ⟨stmt :: rest, rfl, .cons hstmt hrest⟩
        · exact .inr ⟨stmt :: rest, e, rfl, .later hstmt hrest⟩
      · refine .inr ⟨stmt :: rest, e, ?_, .here hstmt hfreshRest⟩
        rw [Stmt.relabelAll, Stmt.relabelAll_eq_map, clears_untyped.stmts hfreshRest]

theorem Block.decided : (block : Block) → Fresh block.nodes → (context : Context) →
    (∃ typed : Block, typed.relabel .untyped = block ∧
      StmtsTyped context.inBlock typed.statements) ∨
      ∃ (stuck : Block) (e : _), stuck.relabel .untyped = block ∧
        StmtsStuck context.inBlock stuck.statements e
  | ⟨statements, span⟩, h, context => by
      obtain ⟨statements, rfl, hbody⟩ | ⟨statements, e, rfl, hbody⟩ :=
        Stmt.allDecided statements h context.inBlock
      · exact .inl ⟨⟨statements, span⟩, rfl, hbody⟩
      · exact .inr ⟨⟨statements, span⟩, e, rfl, hbody⟩

end

end Decided

namespace Program

open Relabel (clears_untyped)

variable {checker : Checker} {typed stuck program : Program} {e : TypeError}

theorem check_of_typed {change : Relabel} (clears : change.Clears)
    (h : StmtsTyped checker.context typed.statements) :
    (typed.relabel change).check checker =
      ⟨typed, checker.afterAll typed.statements, .ok ()⟩ := by
  simp only [relabel, check, h.check clears rfl]

theorem check_of_stuck (h : StmtsStuck checker.context stuck.statements e) :
    ∃ after, ∀ {change : Relabel}, change.Clears →
      (stuck.relabel change).check checker = ⟨stuck, after, .error e⟩ := by
  obtain ⟨after, hcheck⟩ := h.check rfl
  exact ⟨after, fun clears => by simp only [relabel, check, hcheck clears]⟩

theorem decided (fresh : Fresh program.nodes) (context : Context) :
    (∃ typed : Program, typed.relabel .untyped = program ∧ StmtsTyped context typed.statements) ∨
      ∃ (stuck : Program) (e : TypeError), stuck.relabel .untyped = program ∧
        StmtsStuck context stuck.statements e := by
  obtain ⟨typed, htyped, h⟩ | ⟨stuck, e, hstuck, h⟩ :=
    Stmt.allDecided program.statements fresh context
  · exact .inl ⟨⟨typed⟩, by rw [relabel, ← Stmt.relabelAll_eq_map, htyped], h⟩
  · exact .inr ⟨⟨stuck⟩, e, by rw [relabel, ← Stmt.relabelAll_eq_map, hstuck], h⟩

/-- An accepted program is typed in the scopes in which it was checked, and leaves behind the
names of its own statements. -/
theorem check_typed (fresh : Fresh program.nodes)
    (h : (program.check checker).result = .ok ()) :
    StmtsTyped checker.context (program.check checker).node.statements ∧
      (program.check checker).checker =
        checker.afterAll (program.check checker).node.statements := by
  obtain ⟨typed, rfl, htyped⟩ | ⟨stuck, e, rfl, hstuck⟩ := decided fresh checker.context
  · rw [check_of_typed clears_untyped htyped]
    exact ⟨htyped, rfl⟩
  · obtain ⟨after, hcheck⟩ := check_of_stuck hstuck
    rw [hcheck clears_untyped] at h
    exact absurd h nofun

/-- The rules decide what the check of a freshly read program answers, whatever the checker knows.
It is accepted just when the rules give it types; then every slot holds the type that they give, and
the checker knows what the rules know behind the program. Otherwise the check stops at the fault
that the rules name, with the slots filled of all nodes that were finished in front of it and of no
others. -/
theorem check_decides {tokens : List Token} {unnamed : Nat}
    (h : (ofTokens tokens unnamed).result = .ok program) (checker : Checker) :
    ((program.check checker).result = .ok () ↔
        ∃ typed : Program, typed.relabel .untyped = program ∧
          StmtsTyped checker.context typed.statements) ∧
      (∀ typed : Program, typed.relabel .untyped = program →
        StmtsTyped checker.context typed.statements →
        (program.check checker).node = typed ∧ Filled typed.slots ∧
          (program.check checker).checker.context =
            checker.context.afterAll typed.statements) ∧
      (∀ e, (program.check checker).result = .error e ↔
        ∃ stuck : Program, stuck.relabel .untyped = program ∧
          StmtsStuck checker.context stuck.statements e) ∧
      ∀ (stuck : Program) (e : TypeError), stuck.relabel .untyped = program →
        StmtsStuck checker.context stuck.statements e →
        (program.check checker).node = stuck ∧ FilledUpTo stuck.slots := by
  have hcases := decided (ofTokens_fresh h) checker.context
  refine ⟨⟨fun hok => ?_, ?_⟩, ?_, fun e => ⟨fun herror => ?_, ?_⟩, ?_⟩
  · obtain htyped | ⟨stuck, e, rfl, hstuck⟩ := hcases
    · exact htyped
    · obtain ⟨after, hcheck⟩ := check_of_stuck hstuck
      rw [hcheck clears_untyped] at hok
      exact absurd hok nofun
  · rintro ⟨typed, rfl, htyped⟩
    rw [check_of_typed clears_untyped htyped]
  · rintro typed rfl htyped
    rw [check_of_typed clears_untyped htyped]
    exact ⟨rfl, htyped.filled, Checker.context_afterAll checker typed.statements⟩
  · obtain ⟨typed, rfl, htyped⟩ | ⟨stuck, found, rfl, hstuck⟩ := hcases
    · rw [check_of_typed clears_untyped htyped] at herror
      exact absurd herror nofun
    · obtain ⟨after, hcheck⟩ := check_of_stuck hstuck
      rw [hcheck clears_untyped] at herror
      obtain rfl : found = e := Except.error.inj herror
      exact ⟨stuck, rfl, hstuck⟩
  · rintro ⟨stuck, rfl, hstuck⟩
    obtain ⟨after, hcheck⟩ := check_of_stuck hstuck
    rw [hcheck clears_untyped]
  · rintro stuck e rfl hstuck
    obtain ⟨after, hcheck⟩ := check_of_stuck hstuck
    exact ⟨by rw [hcheck clears_untyped], hstuck.filledUpTo⟩

/-- A function that calls itself below a hidden parameter, and a literal whose parameter hides the
literal's own name, which is visible in its body only. -/
def shadowingSource : String :=
  "fn f(n: int) -> int \x7b let m = n \x7b let n = f return n(m) \x7d \x7d " ++
    "let g = fn h(h: int) \x7b f(h) \x7d h"

def shadowing : Program := .read shadowingSource

theorem shadowing_check :
    let checked := shadowing.check .new
    ∃ tokens, (ofTokens tokens 0).result = .ok shadowing ∧
      checked.result = .error ⟨.undefined "h", ⟨90, 1, 1⟩⟩ ∧
      checked.node.slots.count none = 1 ∧
      (checked.result = .ok () ↔
        ∃ typed : Program, typed.relabel .untyped = shadowing ∧
          StmtsTyped Checker.new.context typed.statements) ∧
      (∀ typed : Program, typed.relabel .untyped = shadowing →
        StmtsTyped Checker.new.context typed.statements →
        checked.node = typed ∧ Filled typed.slots ∧
          checked.checker.context = Checker.new.context.afterAll typed.statements) ∧
      (∀ e, checked.result = .error e ↔
        ∃ stuck : Program, stuck.relabel .untyped = shadowing ∧
          StmtsStuck Checker.new.context stuck.statements e) ∧
      ∀ (stuck : Program) (e : TypeError), stuck.relabel .untyped = shadowing →
        StmtsStuck Checker.new.context stuck.statements e →
        checked.node = stuck ∧ FilledUpTo stuck.slots := by
  have hchecked : (ofSource shadowingSource 0).result.isOk ∧
      (shadowing.check .new).result = .error ⟨.undefined "h", ⟨90, 1, 1⟩⟩ ∧
      (shadowing.check .new).node.slots.count none = 1 := by decide +kernel
  obtain ⟨tokens, _, hparsed⟩ := exists_scanned (ofSource_read hchecked.1)
  exact ⟨tokens, hparsed, hchecked.2.1, hchecked.2.2, check_decides hparsed .new⟩

end Program

end Scriptlet
