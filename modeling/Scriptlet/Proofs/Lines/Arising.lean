import Scriptlet.Proofs.Lines.Renumbered

/-! The sessions that scripts can lead to. All the functions without a name in such a session have
numbers that were given out before. So numbers that are given out later can be exchanged for others,
and the session stays as it is. -/

namespace Scriptlet

/-- A session that was made and then used: it has been given scripts, other checks were begun on its
machine, and elsewhere functions without a name took numbers. -/
inductive Session.Arises : Session → Prop
  | new (check : Bool) (output : Output) (clock : Nat → Int64) : Arises (.new check output clock)
  | eval {session : Session} (h : session.Arises) (fuel : Nat) (source : String) :
      Arises (session.eval fuel source).1
  | check {session : Session} (h : session.Arises) (check : Bool) :
      Arises { session with checker := if check then some .new else none }
  | unnamed {session : Session} (h : session.Arises) {unnamed : Nat}
      (hle : session.unnamed ≤ unnamed) : Arises { session with unnamed }

section Keeping

variable {numbers : Nat → Nat} {h : Function.Injective numbers}

theorem Value.Varied.of_keeping {value value' : Value}
    (hvalue : value.Varied (.keeping numbers h) value') :
    value.Varied (.renumbering numbers h) value' := by
  cases hvalue with
  | plain hkind => exact .plain hkind
  | function hcallable =>
      cases hcallable with
      | builtin builtin => exact .function (.builtin builtin)
      | closure hchange hsuits _ =>
          exact .function (.closure hchange ⟨hsuits.1, fun _ _ => trivial⟩ trivial)

theorem Value.Varied.rel_of_keeping {own own' : Option Value}
    (hown : Option.Rel (Value.Varied (.keeping numbers h)) own own') :
    Option.Rel (Value.Varied (.renumbering numbers h)) own own' := by
  cases hown with
  | none => exact .none
  | some hvalue => exact .some hvalue.of_keeping

theorem Session.Varied.of_keeping {session session' : Session}
    (hsession : session.Varied (.keeping numbers h) session') :
    session.Varied (.renumbering numbers h) session' where
  checker := hsession.checker
  machine := { hsession.machine with
    scopes := { hsession.machine.scopes with
      own := fun scope name =>
        Value.Varied.rel_of_keeping (hsession.machine.scopes.own scope name) } }

theorem Machine.keeping_new (output : Output) (clock : Nat → Int64) :
    (Machine.new output clock).Varied (.keeping numbers h) (.new output clock) := by
  have hsame : ∀ name (builtin : Builtin),
      builtin.name = renumbered numbers name ↔ builtin.name = name := by
    intro name builtin
    have hiff : renumbered numbers builtin.name = renumbered numbers name ↔ builtin.name = name :=
      (renumbered_injective h).eq_iff
    rwa [renumbered_builtin] at hiff
  refine ⟨⟨rfl, fun _ => rfl, fun scope name => ?_, fun scope name hbinds => ?_⟩,
    rfl, rfl, rfl, rfl⟩
  · have hname : (Variation.keeping numbers h).rename name = renumbered numbers name := rfl
    rw [Machine.own?_new, Machine.own?_new, hname]
    simp only [hsame]
    split
    · cases Builtin.all.find? (·.name = name) with
      | none => exact .none
      | some builtin => exact .some (.function (.builtin builtin))
    · exact .none
  · rw [Scopes.binds, Machine.own?_new] at hbinds
    split at hbinds
    · rw [Option.isSome_map, List.find?_isSome] at hbinds
      obtain ⟨builtin, -, hname⟩ := hbinds
      obtain rfl : builtin.name = name := by simpa using hname
      exact ⟨builtin.name, renumbered_builtin numbers builtin⟩
    · cases hbinds

theorem Checker.renamed_new (numbers : Nat → Nat) :
    Checker.new.renamed (renumbered numbers) = .new := by
  simp [Checker.new, Checker.renamed, Bindings.renamed]

noncomputable def Comparison.keeping (numbers : Nat → Nat) (h : Function.Injective numbers) :
    Comparison :=
  .exact (.keeping numbers h) 0 fun _ => id

theorem Program.known_of_relabel {program : Program}
    (hprogram : program.relabel (.renumber numbers) = program)
    (hplain : ∀ node ∈ program.nodes, ∀ name ∈ node.plainNames, IsPlain name) {decl : FnDecl}
    (hdecl : .fn decl ∈ program.nodes) : renumbered numbers decl.name = decl.name := by
  have hnodes : program.nodes.map (Node.relabel (.renumber numbers)) = program.nodes := by
    rw [← nodes_relabel, hprogram]
  have hnode : Node.fn (decl.relabel (.renumber numbers)) = .fn decl :=
    List.map_inj_left.mp (hnodes.trans (List.map_id _).symm) _ hdecl
  have hfixed : decl.anonymous = false → renumbered numbers decl.name = decl.name :=
    fun hnamed => renumbered_plain (hplain _ hdecl _ (by simp [Node.plainNames, hnamed]))
  have hname : (decl.relabel (.renumber numbers)).name = decl.name :=
    congrArg FnDecl.name (Node.fn.inj hnode)
  have hrenamed : (decl.relabel (.renumber numbers)).name =
      (Relabel.renumber numbers).name decl.anonymous decl.name := by
    cases decl
    rfl
  rw [hrenamed, Relabel.name_of_fixed hfixed] at hname
  exact hname

/-- All numbers of a session's functions are below the next one. -/
theorem Session.Arises.keeps {session : Session} (hsession : session.Arises)
    (hfixed : ∀ number < session.unnamed, numbers number = number) :
    session.Varied (.keeping numbers h) session := by
  induction hsession with
  | new check output clock =>
      refine ⟨?_, Machine.keeping_new output clock⟩
      cases check with
      | false => rfl
      | true => exact congrArg some (Checker.renamed_new numbers).symm
  | @eval session _ fuel source ih =>
      -- the line is compared with itself, where all numbers that it takes stay
      rw [Session.unnamed_eval] at hfixed
      have hkept := ih fun number hlt =>
        hfixed number (Nat.lt_of_lt_of_le hlt (@Program.ofSource_later numbers _ 0 source).1)
      have hnumbers : ∀ number, session.unnamed ≤ number →
          number < (Program.ofSource source session.unnamed).unnamed →
            numbers number = number + 0 := fun number _ hlt => hfixed number hlt
      have hchange : (Variation.keeping numbers h).changes (.renumber numbers) := rfl
      obtain ⟨hresult, -⟩ := Session.compile_varied hchange hkept rfl hnumbers
      have hknown : ∀ program, (session.compile source).2 = .ok program →
          ∀ decl, .fn decl ∈ program.nodes → renumbered numbers decl.name = decl.name := by
        intro program hprogram decl hdecl
        rw [hprogram] at hresult
        exact Program.known_of_relabel (Except.ok.inj hresult).symm
          (Session.compile_plain hprogram) hdecl
      exact (@Session.eval_varied numbers 0 session session source (.keeping numbers h)
        (fun _ => Iff.rfl) rfl hkept ⟨hkept.machine, rfl, rfl⟩ rfl hnumbers hknown fuel).2.1
  | check _ check ih =>
      refine ⟨?_, (ih hfixed).machine⟩
      cases check with
      | false => rfl
      | true => exact congrArg some (Checker.renamed_new numbers).symm
  | unnamed _ hle ih =>
      have hkept := ih fun number hlt => hfixed number (Nat.lt_of_lt_of_le hlt hle)
      exact ⟨hkept.checker, hkept.machine⟩

end Keeping

end Scriptlet
