import Scriptlet.Proofs.Typing.Rules

/-! What a checked program has to be like for its types to be kept by every run. The checker
itself asks for none of this: a binding may begin with no value, a function may forget to
return, a name may be declared again with another type, and what has the type none may be
anything. -/

namespace Scriptlet

/-- The one type of each name. -/
abbrev Types := String → Option Ty

mutual

/-- Whether control never comes to the end of a statement. -/
def Stmt.returns : Stmt → Bool
  | .ret .. => true
  | .block block => block.returns
  | .conditional _ thenBlock (some otherwise) _ => thenBlock.returns && otherwise.returns
  | _ => false

def Block.returns : Block → Bool
  | ⟨statements, _⟩ => Stmt.lastReturns statements

def Stmt.lastReturns : List Stmt → Bool
  | [] => false
  | [stmt] => stmt.returns
  | _ :: stmt :: rest => Stmt.lastReturns (stmt :: rest)

end

namespace Node

def bindings : Node → Bindings Ty
  | .stmt (.binding name _ _ mark) => [(name, mark.ty.getD .nothing)]
  | .stmt (.function decl) => [(decl.name, decl.mark.ty.getD .nothing)]
  | .expr (.function decl _) =>
      if decl.anonymous then [] else [(decl.name, decl.mark.ty.getD .nothing)]
  | .fn decl => decl.params.map fun param => (param.name, param.ty)
  | _ => []

def isInitialized : Node → Bool
  | .stmt (.binding _ _ init _) => init.isSome
  | _ => true

/-- A function that promises a result returns one. -/
def keepsPromise : Node → Bool
  | .fn decl => decl.resultTy = .nothing ∨ Stmt.lastReturns decl.body
  | _ => true

/-- What is compared for equality has a type other than none. -/
def comparesValues : Node → Bool
  | .expr (.binary .equal left right _) | .expr (.binary .notEqual left right _) =>
      left.mark.ty ≠ some .nothing ∧ right.mark.ty ≠ some .nothing
  | _ => true

/-- What a node has to be like where each name has one type. -/
structure Good (types : Types) (node : Node) : Prop where
  initialized : node.isInitialized
  promise : node.keepsPromise
  compares : node.comparesValues
  named : ∀ entry ∈ node.bindings, types entry.1 = some entry.2

end Node

def Good (types : Types) (nodes : List Node) : Prop := ∀ node ∈ nodes, node.Good types

@[simp] theorem good_cons {types : Types} {node : Node} {nodes : List Node} :
    Good types (node :: nodes) ↔ node.Good types ∧ Good types nodes := by simp [Good]

@[simp] theorem good_append {types : Types} {first second : List Node} :
    Good types (first ++ second) ↔ Good types first ∧ Good types second := List.forall_mem_append

namespace Program

/-- All names of a program with their types, those of the built-in functions first. -/
def bindings (program : Program) : Bindings Ty :=
  Builtin.all.map (fun builtin => (builtin.name, builtin.signature)) ++
    program.nodes.flatMap Node.bindings

structure Careful (program : Program) : Prop where
  initialized : ∀ node ∈ program.nodes, node.isInitialized
  promises : ∀ node ∈ program.nodes, node.keepsPromise
  distinct : (program.bindings.map Prod.fst).Nodup
  compares : ∀ node ∈ program.nodes, node.comparesValues

instance (program : Program) : Decidable program.Careful :=
  decidable_of_iff
    ((∀ node ∈ program.nodes, node.isInitialized) ∧ (∀ node ∈ program.nodes, node.keepsPromise) ∧
      (program.bindings.map Prod.fst).Nodup ∧ ∀ node ∈ program.nodes, node.comparesValues)
    ⟨fun ⟨initialized, promises, distinct, compares⟩ =>
      ⟨initialized, promises, distinct, compares⟩, fun h => ⟨h.1, h.2, h.3, h.4⟩⟩

def types (program : Program) : Types := program.bindings.find?

end Program

section Find

variable {α : Type} {bindings : Bindings α} {name : String} {value : α}

theorem Bindings.find?_of_mem (hmem : (name, value) ∈ bindings)
    (distinct : (bindings.map Prod.fst).Nodup) : bindings.find? name = some value := by
  induction bindings with
  | nil => simp at hmem
  | cons first rest ih =>
      rw [List.map_cons, List.nodup_cons] at distinct
      rcases List.mem_cons.mp hmem with rfl | hrest
      · simp [find?]
      · have hne : first.1 ≠ name :=
          fun heq => distinct.1 (List.mem_map.mpr ⟨(name, value), hrest, heq.symm⟩)
        rw [find?, if_neg hne]
        exact ih hrest distinct.2

theorem Bindings.mem_of_find? (h : bindings.find? name = some value) :
    (name, value) ∈ bindings := by
  induction bindings with
  | nil => simp at h
  | cons first rest ih =>
      simp only [find?] at h
      split at h
      · rename_i hname
        obtain rfl := Option.some.inj h
        exact hname ▸ List.mem_cons_self
      · exact List.mem_cons_of_mem _ (ih h)

end Find

theorem Program.Careful.good {program : Program} (h : program.Careful) :
    Good program.types program.nodes := by
  refine fun node hnode => ⟨h.initialized node hnode, h.promises node hnode, h.compares node hnode,
    fun entry hentry => ?_⟩
  refine Bindings.find?_of_mem (List.mem_append_right _ ?_) h.distinct
  exact List.mem_flatMap.mpr ⟨node, hnode, hentry⟩

end Scriptlet
