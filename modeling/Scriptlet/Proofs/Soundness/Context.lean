import Scriptlet.Proofs.Soundness.Conditions
import Scriptlet.Proofs.Typing.Rules

/-! Contexts in a program in which every name has one type. Whatever is declared on the way, no
context knows a name by another type. -/

namespace Scriptlet

/-- A context that gives names no other types than theirs. -/
def Context.Within (context : Context) (types : Types) : Prop :=
  ∀ name ty, context.types name = some ty → types name = some ty

namespace Context.Within

variable {types : Types} {context : Context} {name : String} {ty : Ty}

theorem extend (h : context.Within types) (hname : types name = some ty) :
    (context.extend name ty).Within types := by
  unfold Context.extend
  split
  · intro key found hfound
    dsimp only at hfound
    by_cases hkey : key = name
    · subst hkey
      rw [Function.update_self] at hfound
      rw [hname, hfound]
    · rw [Function.update_of_ne hkey] at hfound
      exact h key found hfound
  · exact h

theorem inBlock (h : context.Within types) : context.inBlock.Within types := h

theorem after {stmt : Stmt} (h : context.Within types) (good : Good types stmt.nodes) :
    (context.after stmt).Within types := by
  cases hdeclared : stmt.declared? with
  | none => simpa only [Context.after, hdeclared] using h
  | some entry =>
      simp only [Context.after, hdeclared]
      refine h.extend ?_
      cases stmt with
      | binding key declared init mark =>
          obtain ⟨ty, hslot, rfl⟩ := Option.map_eq_some_iff.mp hdeclared
          have hnode := good _ (Stmt.binding key declared init mark).mem_nodes
          simpa [hslot] using hnode.named _ List.mem_cons_self
      | function decl =>
          obtain ⟨ty, hslot, rfl⟩ := Option.map_eq_some_iff.mp hdeclared
          have hnode := good _ (Stmt.function decl).mem_nodes
          simpa [hslot] using hnode.named _ List.mem_cons_self
      | _ => simp [Stmt.declared?] at hdeclared

theorem withParams {params : List Param} (h : context.Within types)
    (hparams : ∀ param ∈ params, types param.name = some param.ty) :
    (context.withParams params).Within types := by
  induction params generalizing context with
  | nil => exact h
  | cons param rest ih =>
      rw [List.forall_mem_cons] at hparams
      exact ih (h.extend hparams.1) hparams.2

theorem inBody {visible : NameScope} {decl : FnDecl} (h : context.Within types)
    (good : Good types decl.nodes)
    (hname : visible = .around ∨ !decl.anonymous → types decl.name = some decl.ty) :
    (context.inBody visible decl).Within types := by
  have hnamed : (context.withFunction decl visible).Within types := by
    cases visible with
    | around => exact h.extend (hname (.inl rfl))
    | inside =>
        cases hanonymous : decl.anonymous with
        | true => simpa [withFunction, hanonymous] using h.inBlock
        | false =>
            have hown := hname (.inr (by simp [hanonymous]))
            simpa [withFunction, hanonymous] using h.inBlock.extend hown
  have hnode : (Node.fn decl).Good types := good _ decl.mem_nodes
  exact hnamed.withParams fun param hparam =>
    hnode.named (param.name, param.ty) (List.mem_map_of_mem hparam)

end Context.Within

end Scriptlet
