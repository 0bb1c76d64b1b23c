import Scriptlet.Proofs.Typing.View

/-! Where a name is used. A place is what the checker knows at a node, and how its scopes will
be laid out in a run: a scope of the checker becomes one scope of the run, and the scope of a
function literal with a name of its own becomes two, of which the outer one holds that name. -/

namespace Scriptlet

def Bindings.has {α : Type} (bindings : Bindings α) (name : String) : Bool :=
  (bindings.find? name).isSome

@[simp] theorem Bindings.has_insert {α : Type} (bindings : Bindings α) (name key : String)
    (value : α) : (bindings.insert name value).has key ↔ key = name ∨ bindings.has key := by
  unfold has
  by_cases h : name = key
  · simp [← h]
  · simp [find?_insert_of_ne bindings value h, Ne.symm h]

def FnDecl.isWrapped (visible : NameScope) (decl : FnDecl) : Bool :=
  visible = .inside ∧ !decl.anonymous

structure Place where
  checker : Checker
  /-- How many scopes of a run each scope of the checker becomes, innermost first. -/
  sizes : List Nat
  /-- How many of the scopes belong to the function around the place. -/
  own : Nat

namespace Place

/-- At the top, behind what the checker knows already. Names that it does not know may be bound
there as well, unless the run is fresh. -/
def top (checker : Checker) (fresh : Bool) : Place := ⟨checker, [1], if fresh then 1 else 0⟩

def after (place : Place) (stmt : Stmt) : Place :=
  { place with checker := place.checker.after stmt }

def inBlock (place : Place) : Place :=
  ⟨place.checker.openScope [], 1 :: place.sizes, place.own + 1⟩

def inBody (place : Place) (visible : NameScope) (decl : FnDecl) (params : List Ty) : Place :=
  ⟨place.checker.inBody visible decl params,
    (if decl.isWrapped visible then 2 else 1) :: place.sizes, 1⟩

/-- What the rules know at a place. -/
def context (place : Place) : Context := place.checker.context

@[simp] theorem context_after (place : Place) (stmt : Stmt) :
    (place.after stmt).context = place.context.after stmt :=
  Checker.context_after place.checker stmt

@[simp] theorem context_inBlock (place : Place) : place.inBlock.context = place.context.inBlock :=
  Checker.context_openScope place.checker

theorem context_inBody (place : Place) (visible : NameScope) (decl : FnDecl) :
    (place.inBody visible decl (decl.params.map Param.ty)).context =
      place.context.inBody visible decl :=
  Checker.context_inBody place.checker visible decl

end Place

def Checker.depth? (checker : Checker) (name : String) : Option Nat :=
  checker.scopes.findIdx? (·.has name)

structure Use where
  name : String
  span : Span
  place : Place

mutual

def Expr.uses (place : Place) : Expr → List Use
  | .literal .. => []
  | .variable name mark => [⟨name, mark.span, place⟩]
  | .assign name value mark => ⟨name, mark.span, place⟩ :: value.uses place
  | .group inner _ => inner.uses place
  | .unary _ operand _ => operand.uses place
  | .binary _ left right _ => left.uses place ++ right.uses place
  | .call callee args _ => callee.uses place ++ Expr.allUses place args
  | .function decl _ => decl.uses place .inside

def Expr.allUses (place : Place) : List Expr → List Use
  | [] => []
  | expr :: rest => expr.uses place ++ Expr.allUses place rest

/-- The types of the parameters are those in the slot of the function. -/
def FnDecl.uses (place : Place) (visible : NameScope) : FnDecl → List Use
  | ⟨name, anonymous, params, result, body, mark⟩ =>
      match mark.ty with
      | some (.function tys _) =>
          Stmt.allUses (place.inBody visible ⟨name, anonymous, params, result, [], mark⟩ tys) body
      | _ => []

def Stmt.uses (place : Place) : Stmt → List Use
  | .expression expr => expr.uses place
  | .binding _ _ none _ => []
  | .binding _ _ (some init) _ => init.uses place
  | .block block => block.uses place.inBlock
  | .conditional condition thenBlock none _ =>
      condition.uses place ++ thenBlock.uses place.inBlock
  | .conditional condition thenBlock (some otherwise) _ =>
      condition.uses place ++ (thenBlock.uses place.inBlock ++ otherwise.uses place)
  | .loop condition body _ => condition.uses place ++ body.uses place.inBlock
  | .function decl => decl.uses place .around
  | .ret none _ => []
  | .ret (some value) _ => value.uses place

def Stmt.allUses (place : Place) : List Stmt → List Use
  | [] => []
  | stmt :: rest => stmt.uses place ++ Stmt.allUses (place.after stmt) rest

def Block.uses (place : Place) : Block → List Use
  | ⟨statements, _⟩ => Stmt.allUses place statements

end

def Program.uses (program : Program) : List Use :=
  Stmt.allUses (.top .new true) program.statements

theorem FnDecl.uses_eq {place : Place} {visible : NameScope} {decl : FnDecl} {params : List Ty}
    {result : Ty} (h : decl.mark.ty = some (.function params result)) :
    decl.uses place visible = Stmt.allUses (place.inBody visible decl params) decl.body := by
  obtain ⟨name, anonymous, parameters, written, body, mark⟩ := decl
  simp only at h
  simp only [uses, h]
  rfl

theorem Checker.lookup_eq (checker : Checker) (name : String) :
    checker.lookup name =
      (checker.depth? name).bind fun depth =>
        checker.scopes[depth]?.bind (·.find? name) := by
  obtain ⟨scopes, returns⟩ := checker
  simp only [lookup, depth?]
  induction scopes with
  | nil => rfl
  | cons scope outer ih =>
      rw [List.findSome?_cons, List.findIdx?_cons, ih]
      cases hfind : scope.find? name with
      | some ty => simp [Bindings.has, hfind]
      | none =>
          simp only [Bindings.has, hfind, Option.isSome_none, Bool.false_eq_true, if_false]
          cases outer.findIdx? fun scope => (scope.find? name).isSome <;> simp

theorem Checker.depth_of_lookup {checker : Checker} {name : String} {ty : Ty}
    (h : checker.lookup name = some ty) : ∃ depth, checker.depth? name = some depth := by
  rw [lookup_eq] at h
  obtain ⟨depth, hdepth, _⟩ := Option.bind_eq_some_iff.mp h
  exact ⟨depth, hdepth⟩

theorem Bindings.has_foldl_insert (entries : List (Param × Ty)) (scope : Bindings Ty)
    (name : String) :
    (entries.foldl (fun scope entry => Bindings.insert scope entry.1.name entry.2) scope).has name ↔
      (∃ entry ∈ entries, entry.1.name = name) ∨ scope.has name := by
  induction entries generalizing scope with
  | nil => simp
  | cons entry rest ih =>
      rw [List.foldl_cons, ih, has_insert]
      simp only [List.mem_cons, or_and_right, exists_or, exists_eq_left]
      rw [or_left_comm, ← or_assoc, eq_comm]

theorem has_bodyScope (visible : NameScope) (decl : FnDecl) (ty : Ty) {params : List Ty}
    (hlength : params.length = decl.params.length) (name : String) :
    (bodyScope visible decl ty params).has name ↔
      (∃ param ∈ decl.params, param.name = name) ∨ decl.isWrapped visible ∧ name = decl.name := by
  have hfst : (decl.params.zip params).map Prod.fst = decl.params :=
    List.map_fst_zip (Nat.le_of_eq hlength.symm)
  have hparams : (∃ entry ∈ decl.params.zip params, entry.1.name = name) ↔
      ∃ param ∈ decl.params, param.name = name := by
    constructor
    · rintro ⟨entry, hentry, hname⟩
      exact ⟨entry.1, (List.of_mem_zip hentry).1, hname⟩
    · rintro ⟨param, hparam, hname⟩
      rw [← hfst] at hparam
      obtain ⟨entry, hentry, rfl⟩ := List.mem_map.mp hparam
      exact ⟨entry, hentry, hname⟩
  have hown : Bindings.has (if visible = .inside ∧ !decl.anonymous then [(decl.name, ty)] else [])
      name ↔ decl.isWrapped visible ∧ name = decl.name := by
    unfold FnDecl.isWrapped
    by_cases hwrapped : visible = .inside ∧ !decl.anonymous
    · simp only [if_pos hwrapped, decide_eq_true hwrapped, true_and]
      by_cases hname : decl.name = name
      · simp [Bindings.has, Bindings.find?, hname]
      · simp [Bindings.has, Bindings.find?, hname, Ne.symm hname]
    · simp only [if_neg hwrapped, decide_eq_false hwrapped]
      simp [Bindings.has]
  rw [bodyScope, Bindings.has_foldl_insert, hparams, hown]

end Scriptlet
