import Scriptlet.Proofs.Typing.Stuck

/-! The slots of a tree in the order in which their nodes are finished. A typed tree has a type
in all of them; on a tree that is stuck the slots up to some point are filled and all behind it
are empty. -/

namespace Scriptlet

mutual

def Expr.slots : Expr → List (Option Ty)
  | .literal _ mark | .variable _ mark => [mark.ty]
  | .assign _ value mark => value.slots ++ [mark.ty]
  | .group inner mark => inner.slots ++ [mark.ty]
  | .unary _ operand mark => operand.slots ++ [mark.ty]
  | .binary _ left right mark => left.slots ++ (right.slots ++ [mark.ty])
  | .call callee args mark => callee.slots ++ (Expr.allSlots args ++ [mark.ty])
  | .function decl mark => decl.slots ++ [mark.ty]

def Expr.allSlots : List Expr → List (Option Ty)
  | [] => []
  | expr :: rest => expr.slots ++ Expr.allSlots rest

/-- A function is finished, as far as its own slot goes, in front of its body. -/
def FnDecl.slots : FnDecl → List (Option Ty)
  | ⟨_, _, _, _, body, mark⟩ => mark.ty :: Stmt.allSlots body

def Stmt.slots : Stmt → List (Option Ty)
  | .expression expr => expr.slots
  | .binding _ _ none mark => [mark.ty]
  | .binding _ _ (some init) mark => init.slots ++ [mark.ty]
  | .block block => block.slots
  | .conditional condition thenBlock none _ => condition.slots ++ thenBlock.slots
  | .conditional condition thenBlock (some otherwise) _ =>
      condition.slots ++ (thenBlock.slots ++ otherwise.slots)
  | .loop condition body _ => condition.slots ++ body.slots
  | .function decl => decl.slots
  | .ret none _ => []
  | .ret (some value) _ => value.slots

def Stmt.allSlots : List Stmt → List (Option Ty)
  | [] => []
  | stmt :: rest => stmt.slots ++ Stmt.allSlots rest

def Block.slots : Block → List (Option Ty)
  | ⟨statements, _⟩ => Stmt.allSlots statements

end

def Program.slots (program : Program) : List (Option Ty) := Stmt.allSlots program.statements

theorem FnDecl.slots_eq (decl : FnDecl) :
    decl.slots = decl.mark.ty :: Stmt.allSlots decl.body := by
  cases decl
  rfl

theorem Block.slots_eq (block : Block) : block.slots = Stmt.allSlots block.statements := by
  cases block
  rfl

def Filled (slots : List (Option Ty)) : Prop := ∀ slot ∈ slots, slot.isSome

def Vacant (slots : List (Option Ty)) : Prop := ∀ slot ∈ slots, slot = none

/-- The slots are filled up to some point, and empty behind it. -/
def FilledUpTo (slots : List (Option Ty)) : Prop :=
  ∃ front back, slots = front ++ back ∧ Filled front ∧ Vacant back

section Lists

variable {slot : Option Ty} {slots first second : List (Option Ty)}

@[simp] theorem filled_nil : Filled [] := by simp [Filled]

@[simp] theorem filled_cons : Filled (slot :: slots) ↔ slot.isSome ∧ Filled slots := by
  simp [Filled]

@[simp] theorem filled_append : Filled (first ++ second) ↔ Filled first ∧ Filled second :=
  List.forall_mem_append

@[simp] theorem vacant_nil : Vacant [] := by simp [Vacant]

@[simp] theorem vacant_cons : Vacant (slot :: slots) ↔ slot = none ∧ Vacant slots := by
  simp [Vacant]

@[simp] theorem vacant_append : Vacant (first ++ second) ↔ Vacant first ∧ Vacant second :=
  List.forall_mem_append

theorem Vacant.filledUpTo (h : Vacant slots) : FilledUpTo slots := ⟨[], slots, rfl, filled_nil, h⟩

theorem FilledUpTo.behind (h : FilledUpTo second) (hfirst : Filled first) :
    FilledUpTo (first ++ second) := by
  obtain ⟨front, back, rfl, hfront, hback⟩ := h
  exact ⟨first ++ front, back, by simp, filled_append.mpr ⟨hfirst, hfront⟩, hback⟩

theorem FilledUpTo.cons (h : FilledUpTo slots) (hslot : slot.isSome) :
    FilledUpTo (slot :: slots) := by
  obtain ⟨front, back, rfl, hfront, hback⟩ := h
  exact ⟨slot :: front, back, rfl, filled_cons.mpr ⟨hslot, hfront⟩, hback⟩

theorem FilledUpTo.before (h : FilledUpTo first) (hsecond : Vacant second) :
    FilledUpTo (first ++ second) := by
  obtain ⟨front, back, rfl, hfront, hback⟩ := h
  exact ⟨front, back ++ second, by simp, hfront, vacant_append.mpr ⟨hback, hsecond⟩⟩

end Lists

mutual

theorem Expr.slots_vacant : (expr : Expr) → Fresh expr.nodes → Vacant expr.slots
  | .literal .., h | .variable .., h => by
      simpa [Expr.nodes, Expr.slots, Node.isFresh, Expr.mark] using h
  | .assign _ value _, h => by
      simp only [Expr.nodes, fresh_cons, Node.isFresh, Expr.mark, Option.isNone_iff_eq_none] at h
      simp [Expr.slots, value.slots_vacant h.2, h.1]
  | .group inner _, h => by
      simp only [Expr.nodes, fresh_cons, Node.isFresh, Expr.mark, Option.isNone_iff_eq_none] at h
      simp [Expr.slots, inner.slots_vacant h.2, h.1]
  | .unary _ operand _, h => by
      simp only [Expr.nodes, fresh_cons, Node.isFresh, Expr.mark, Option.isNone_iff_eq_none] at h
      simp [Expr.slots, operand.slots_vacant h.2, h.1]
  | .binary _ left right _, h => by
      simp only [Expr.nodes, fresh_cons, fresh_append, Node.isFresh, Expr.mark,
        Option.isNone_iff_eq_none] at h
      simp [Expr.slots, left.slots_vacant h.2.1, right.slots_vacant h.2.2, h.1]
  | .call callee args _, h => by
      simp only [Expr.nodes, fresh_cons, fresh_append, Node.isFresh, Expr.mark,
        Option.isNone_iff_eq_none] at h
      simp [Expr.slots, callee.slots_vacant h.2.1, Expr.allSlots_vacant args h.2.2, h.1]
  | .function decl _, h => by
      simp only [Expr.nodes, fresh_cons, Node.isFresh, Expr.mark, Option.isNone_iff_eq_none] at h
      simp [Expr.slots, decl.slots_vacant h.2, h.1]

theorem Expr.allSlots_vacant : (exprs : List Expr) → Fresh (Expr.allNodes exprs) →
    Vacant (Expr.allSlots exprs)
  | [], _ => vacant_nil
  | expr :: rest, h => by
      simp only [Expr.allNodes, fresh_append] at h
      simp [Expr.allSlots, expr.slots_vacant h.1, Expr.allSlots_vacant rest h.2]

theorem FnDecl.slots_vacant : (decl : FnDecl) → Fresh decl.nodes → Vacant decl.slots
  | ⟨_, _, _, _, body, _⟩, h => by
      simp only [FnDecl.nodes, fresh_cons, Node.isFresh, Option.isNone_iff_eq_none] at h
      simp [FnDecl.slots, Stmt.allSlots_vacant body h.2, h.1]

theorem Stmt.slots_vacant : (stmt : Stmt) → Fresh stmt.nodes → Vacant stmt.slots
  | .expression expr, h => by
      simp only [Stmt.nodes, fresh_cons] at h
      simp [Stmt.slots, expr.slots_vacant h.2]
  | .binding _ _ none _, h => by simpa [Stmt.nodes, Stmt.slots, Node.isFresh] using h
  | .binding _ _ (some init) _, h => by
      simp only [Stmt.nodes, fresh_cons, Node.isFresh, Option.isNone_iff_eq_none] at h
      simp [Stmt.slots, init.slots_vacant h.2, h.1]
  | .block block, h => by
      simp only [Stmt.nodes, fresh_cons] at h
      simp [Stmt.slots, block.slots_vacant h.2]
  | .conditional condition thenBlock none _, h => by
      simp only [Stmt.nodes, fresh_cons, fresh_append] at h
      simp [Stmt.slots, condition.slots_vacant h.2.1, thenBlock.slots_vacant h.2.2]
  | .conditional condition thenBlock (some otherwise) _, h => by
      simp only [Stmt.nodes, fresh_cons, fresh_append] at h
      simp [Stmt.slots, condition.slots_vacant h.2.1, thenBlock.slots_vacant h.2.2.1,
        otherwise.slots_vacant h.2.2.2]
  | .loop condition body _, h => by
      simp only [Stmt.nodes, fresh_cons, fresh_append] at h
      simp [Stmt.slots, condition.slots_vacant h.2.1, body.slots_vacant h.2.2]
  | .function decl, h => by
      simp only [Stmt.nodes, fresh_cons] at h
      simp [Stmt.slots, decl.slots_vacant h.2]
  | .ret none _, _ => vacant_nil
  | .ret (some value) _, h => by
      simp only [Stmt.nodes, fresh_cons] at h
      simp [Stmt.slots, value.slots_vacant h.2]

theorem Stmt.allSlots_vacant : (stmts : List Stmt) → Fresh (Stmt.allNodes stmts) →
    Vacant (Stmt.allSlots stmts)
  | [], _ => vacant_nil
  | stmt :: rest, h => by
      simp only [Stmt.allNodes, fresh_append] at h
      simp [Stmt.allSlots, stmt.slots_vacant h.1, Stmt.allSlots_vacant rest h.2]

theorem Block.slots_vacant : (block : Block) → Fresh block.nodes → Vacant block.slots
  | ⟨statements, _⟩, h => Stmt.allSlots_vacant statements h

end

mutual

theorem HasType.filled {context : Context} {expr : Expr} {ty : Ty} :
    HasType context expr ty → Filled expr.slots
  | .literal slot | .read _ slot => by simp [Expr.slots, slot]
  | .assign _ hvalue slot => by simp [Expr.slots, hvalue.filled, slot]
  | .group hinner slot => by simp [Expr.slots, hinner.filled, slot]
  | .unary hoperand _ slot => by simp [Expr.slots, hoperand.filled, slot]
  | .binary hleft hright _ slot => by simp [Expr.slots, hleft.filled, hright.filled, slot]
  | .call hcallee hargs slot => by simp [Expr.slots, hcallee.filled, hargs.filled, slot]
  | .function hdecl slot => by simp [Expr.slots, hdecl.filled, slot]

theorem HaveTypes.filled {context : Context} {args : List Expr} {params : List Ty} :
    HaveTypes context args params → Filled (Expr.allSlots args)
  | .nil => filled_nil
  | .cons harg _ hargs => by simp [Expr.allSlots, harg.filled, hargs.filled]

theorem FnTyped.filled {context : Context} {visible : NameScope} {decl : FnDecl} :
    FnTyped context visible decl → Filled decl.slots
  | .intro _ slot hbody => by simp [FnDecl.slots_eq, slot, hbody.filled]

theorem StmtTyped.filled {context : Context} {stmt : Stmt} :
    StmtTyped context stmt → Filled stmt.slots
  | .expression hexpr => hexpr.filled
  | .uninitialized slot => by simp [Stmt.slots, slot]
  | .binding hinit _ slot => by simp [Stmt.slots, hinit.filled, slot]
  | .block hblock => by simp [Stmt.slots, Block.slots_eq, hblock.filled]
  | .conditional hcondition hthenBlock => by
      simp [Stmt.slots, Block.slots_eq, hcondition.filled, hthenBlock.filled]
  | .alternative hcondition hthenBlock _ hotherwise => by
      simp [Stmt.slots, Block.slots_eq, hcondition.filled, hthenBlock.filled, hotherwise.filled]
  | .loop hcondition hbody => by
      simp [Stmt.slots, Block.slots_eq, hcondition.filled, hbody.filled]
  | .function hdecl => hdecl.filled
  | .finish _ => filled_nil
  | .ret hvalue _ => hvalue.filled

theorem StmtsTyped.filled {context : Context} {stmts : List Stmt} :
    StmtsTyped context stmts → Filled (Stmt.allSlots stmts)
  | .nil => filled_nil
  | .cons hstmt hrest => by simp [Stmt.allSlots, hstmt.filled, hrest.filled]

end

theorem Stmt.slots_conditional (condition : Expr) (thenBlock : Block) (otherwise : Option Stmt)
    (span : Span) :
    (Stmt.conditional condition thenBlock otherwise span).slots =
      condition.slots ++ (Stmt.allSlots thenBlock.statements ++
        (otherwise.map Stmt.slots).getD []) := by
  cases otherwise <;> simp [Stmt.slots, Block.slots_eq]

theorem Stmt.slots_else_vacant {otherwise : Option Stmt}
    (fresh : ∀ stmt ∈ otherwise, Fresh stmt.nodes) :
    Vacant ((otherwise.map Stmt.slots).getD []) := by
  cases otherwise with
  | none => exact vacant_nil
  | some stmt => exact stmt.slots_vacant (fresh stmt rfl)

mutual

theorem ExprStuck.filledUpTo {context : Context} {expr : Expr} {e : TypeError} :
    ExprStuck context expr e → FilledUpTo expr.slots
  | .undefined _ slot => Vacant.filledUpTo (by simp [Expr.slots, slot])
  | .undeclared _ fresh slot =>
      Vacant.filledUpTo (by simp [Expr.slots, Expr.slots_vacant _ fresh, slot])
  | .assigned _ hvalue slot => hvalue.filledUpTo.before (by simp [slot])
  | .assignment _ hvalue _ slot => (Vacant.filledUpTo (by simp [slot])).behind hvalue.filled
  | .group hinner slot => hinner.filledUpTo.before (by simp [slot])
  | .unary hoperand slot => hoperand.filledUpTo.before (by simp [slot])
  | .operand hoperand _ slot => (Vacant.filledUpTo (by simp [slot])).behind hoperand.filled
  | .left hleft fresh slot =>
      hleft.filledUpTo.before (by simp [Expr.slots_vacant _ fresh, slot])
  | .right hleft hright slot =>
      (hright.filledUpTo.before (by simp [slot])).behind hleft.filled
  | .operands hleft hright _ slot =>
      ((Vacant.filledUpTo (by simp [slot])).behind hright.filled).behind hleft.filled
  | .callee hcallee fresh slot =>
      hcallee.filledUpTo.before (by simp [Expr.allSlots_vacant _ fresh, slot])
  | .notCallable hcallee _ fresh slot | .arity hcallee _ fresh slot =>
      (Vacant.filledUpTo (by simp [Expr.allSlots_vacant _ fresh, slot])).behind hcallee.filled
  | .args hcallee _ hargs slot =>
      (hargs.filledUpTo.before (by simp [slot])).behind hcallee.filled
  | .function hdecl slot => hdecl.filledUpTo.before (by simp [slot])

theorem ArgsStuck.filledUpTo {context : Context} {number : Nat} {args : List Expr}
    {params : List Ty} {e : TypeError} :
    ArgsStuck context number args params e → FilledUpTo (Expr.allSlots args)
  | .here harg fresh => harg.filledUpTo.before (Expr.allSlots_vacant _ fresh)
  | .mismatch harg _ fresh => (Expr.allSlots_vacant _ fresh).filledUpTo.behind harg.filled
  | .later harg _ hargs => hargs.filledUpTo.behind harg.filled

theorem FnStuck.filledUpTo {context : Context} {visible : NameScope} {decl : FnDecl}
    {e : TypeError} : FnStuck context visible decl e → FilledUpTo decl.slots
  | .parameter _ _ _ slot fresh =>
      Vacant.filledUpTo (by simp [FnDecl.slots_eq, slot, Stmt.allSlots_vacant _ fresh])
  | .body _ slot hbody => by
      rw [FnDecl.slots_eq]
      exact hbody.filledUpTo.cons (by simp [slot])

theorem StmtStuck.filledUpTo {context : Context} {stmt : Stmt} {e : TypeError} :
    StmtStuck context stmt e → FilledUpTo stmt.slots
  | .expression hexpr => hexpr.filledUpTo
  | .untyped slot => Vacant.filledUpTo (by simp [Stmt.slots, slot])
  | .init hinit slot => hinit.filledUpTo.before (by simp [slot])
  | .initializer hinit _ slot => (Vacant.filledUpTo (by simp [slot])).behind hinit.filled
  | .block hblock => by
      rw [Stmt.slots, Block.slots_eq]
      exact hblock.filledUpTo
  | .condition hcondition freshThen freshElse => by
      rw [Stmt.slots_conditional, ← Block.slots_eq]
      exact hcondition.filledUpTo.before (vacant_append.mpr
        ⟨Block.slots_vacant _ freshThen, Stmt.slots_else_vacant freshElse⟩)
  | .thenBlock hcondition hthenBlock freshElse => by
      rw [Stmt.slots_conditional]
      exact (hthenBlock.filledUpTo.before (Stmt.slots_else_vacant freshElse)).behind
        hcondition.filled
  | .otherwise hcondition hthenBlock hotherwise => by
      rw [Stmt.slots, Block.slots_eq]
      exact (hotherwise.filledUpTo.behind hthenBlock.filled).behind hcondition.filled
  | .loop hcondition fresh => hcondition.filledUpTo.before (Block.slots_vacant _ fresh)
  | .body hcondition hbody => by
      rw [Stmt.slots, Block.slots_eq]
      exact hbody.filledUpTo.behind hcondition.filled
  | .function hdecl => hdecl.filledUpTo
  | .finish _ _ => vacant_nil.filledUpTo
  | .value hvalue => hvalue.filledUpTo
  | .ret hvalue _ _ => by
      simpa [Stmt.slots] using vacant_nil.filledUpTo.behind hvalue.filled

theorem StmtsStuck.filledUpTo {context : Context} {stmts : List Stmt} {e : TypeError} :
    StmtsStuck context stmts e → FilledUpTo (Stmt.allSlots stmts)
  | .here hstmt fresh => hstmt.filledUpTo.before (Stmt.allSlots_vacant _ fresh)
  | .later hstmt hrest => hrest.filledUpTo.behind hstmt.filled

end

end Scriptlet
