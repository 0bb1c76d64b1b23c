import Mathlib.Data.List.Forall2
import Scriptlet.Proofs.Scopes
import Scriptlet.Proofs.Soundness.Context
import Scriptlet.Value.Operate

/-! When a value has a type. A name has one type throughout a program, so a function value needs
no scopes to be typed: its body is typed in a context that gives every name its type. -/

namespace Scriptlet

def Callable.Has (types : Types) : Callable → List Ty → Ty → Prop
  | .builtin b, params, result => b.signature = .function params result
  | .closure made, params, result =>
      ∃ context visible, FnTyped context visible made.decl ∧
        made.decl.ty = .function params result ∧
        (context.inBody visible made.decl).Within types ∧ Good types made.decl.nodes

def Callable.resultTy : Callable → Ty
  | .builtin .clock => .int
  | .builtin .print | .builtin .println => .nothing
  | .closure made => made.decl.resultTy

/-- Everything has the type none, which promises nothing. -/
def Value.Has (types : Types) : Value → Ty → Prop
  | _, .nothing => True
  | .int _, .int | .float _, .float | .text _, .string | .bool _, .bool => True
  | .function callable, .function params result => callable.Has types params result
  | _, _ => False

def Scopes.Typed (types : Types) (scopes : Scopes) : Prop :=
  ∀ id name value, scopes.own? id name = some value → ∀ ty, types name = some ty →
    value.Has types ty

section Values

variable {types : Types} {value left right : Value}

theorem Value.has_ofLiteral (value : Literal) : (Value.ofLiteral value).Has types value.ty := by
  cases value <;> trivial

theorem Value.Has.int (h : value.Has types .int) : ∃ n, value = .int n := by
  cases value <;> first | exact ⟨_, rfl⟩ | exact h.elim

theorem Value.Has.float (h : value.Has types .float) : ∃ x, value = .float x := by
  cases value <;> first | exact ⟨_, rfl⟩ | exact h.elim

theorem Value.Has.string (h : value.Has types .string) : ∃ s, value = .text s := by
  cases value <;> first | exact ⟨_, rfl⟩ | exact h.elim

theorem Value.Has.bool (h : value.Has types .bool) : ∃ b, value = .bool b := by
  cases value <;> first | exact ⟨_, rfl⟩ | exact h.elim

theorem Value.Has.function {params : List Ty} {result : Ty}
    (h : value.Has types (.function params result)) :
    ∃ callable, value = .function callable ∧ callable.Has types params result := by
  cases value <;> first | exact ⟨_, rfl, h⟩ | exact h.elim

theorem Value.Has.user {name : String} (h : value.Has types (.user name)) : False := by
  cases value <;> exact h

end Values

section Functions

variable {types : Types} {callable : Callable} {params : List Ty} {ty : Ty}
  {context : Context} {visible : NameScope} {decl : FnDecl}

theorem Callable.Has.eq_resultTy (h : callable.Has types params ty) :
    ty = callable.resultTy := by
  cases callable with
  | builtin b => cases b <;> exact (Ty.function.inj h).2.symm
  | closure made =>
      obtain ⟨_, _, _, hty, _⟩ := h
      exact (Ty.function.inj hty).2.symm

theorem Callable.Has.length_params (h : callable.Has types params ty) :
    params.length = callable.arity := by
  cases callable with
  | builtin b => cases b <;> exact congrArg List.length (Ty.function.inj h).1.symm
  | closure made =>
      obtain ⟨_, _, _, hty, _⟩ := h
      rw [← (Ty.function.inj hty).1, List.length_map]
      rfl

/-- A function value has the type that its function was given, in whatever scope it is made. -/
theorem FnTyped.has_closure (h : FnTyped context visible decl) (within : context.Within types)
    (good : Good types decl.nodes)
    (hname : visible = .around ∨ !decl.anonymous → types decl.name = some decl.ty)
    (identity : Nat) (name : String) (scope : ScopeId) :
    (Value.function (.closure ⟨identity, name, decl, scope⟩)).Has types decl.ty :=
  ⟨context, visible, h, rfl, within.inBody good hname, good⟩

end Functions

namespace Scopes.Typed

variable {types : Types} {scopes : Scopes} {name : String} {ty : Ty} {value : Value}

theorem get? (h : scopes.Typed types) {scope : ScopeId} (hname : types name = some ty)
    (hget : scopes.get? scope name = some value) : value.Has types ty := by
  obtain ⟨nearest, _, hown⟩ := Option.bind_eq_some_iff.mp hget
  exact h nearest name value hown ty hname

theorem define (h : scopes.Typed types) (hname : types name = some ty)
    (hvalue : value.Has types ty) (scope : ScopeId) :
    (scopes.define scope name value).Typed types := by
  intro id key found hfound other hother
  rw [own?_define] at hfound
  split at hfound
  · rename_i hsame
    obtain rfl := Option.some.inj hfound
    obtain rfl : ty = other := Option.some.inj (hname.symm.trans (hsame.2.1 ▸ hother))
    exact hvalue
  · exact h id key found hfound other hother

theorem addInside (h : scopes.Typed types) (outer : ScopeId) :
    (scopes.addInside outer).1.Typed types := by
  intro id key found hfound
  rw [own?_addInside] at hfound
  exact h id key found hfound

theorem enclose (h : scopes.Typed types) (hname : types name = some ty)
    (hvalue : value.Has types ty) (outer : ScopeId) :
    (scopes.enclose outer name value).Typed types :=
  (h.addInside outer).define hname hvalue scopes.size

theorem enter (h : scopes.Typed types) {params : List Param} {args : List Value}
    (hnames : ∀ param ∈ params, types param.name = some param.ty)
    (hargs : List.Forall₂ (fun ty arg => Value.Has types arg ty) (params.map Param.ty) args)
    (outer : ScopeId) : (scopes.enter outer params args).Typed types := by
  intro id key found hfound ty hty
  rcases own?_enter hfound with hbefore | ⟨entry, hmem, rfl, rfl⟩
  · exact h id key found hbefore ty hty
  · obtain rfl : entry.1.ty = ty :=
      Option.some.inj ((hnames _ (List.of_mem_zip hmem).1).symm.trans hty)
    exact List.forall₂_zip (List.forall₂_map_left_iff.mp hargs) hmem

end Scopes.Typed

def Comes (types : Types) (ty : Ty) : Except RuntimeFault Value → Prop
  | .ok value => value.Has types ty
  | .error fault => fault = .overflow ∨ fault = .divisionByZero

section Operators

variable {types : Types} {left right : Value} {leftTy rightTy ty : Ty}

theorem Value.ofInt_comes (n : Int) : Comes types .int (Value.ofInt n) := by
  unfold ofInt
  cases int64? n with
  | some n => trivial
  | none => exact .inl rfl

theorem Value.Has.numbers (hleft : left.Has types leftTy) (hright : right.Has types rightTy)
    (widens : leftTy.Widens rightTy ty) :
    (∃ m n, left = .int m ∧ right = .int n ∧ ty = .int) ∨
      (∃ m y, left = .int m ∧ right = .float y ∧ ty = .float) ∨
      (∃ x n, left = .float x ∧ right = .int n ∧ ty = .float) ∨
      ∃ x y, left = .float x ∧ right = .float y ∧ ty = .float := by
  cases widens with
  | ints =>
      obtain ⟨m, rfl⟩ := hleft.int
      obtain ⟨n, rfl⟩ := hright.int
      exact .inl ⟨m, n, rfl, rfl, rfl⟩
  | intFloat =>
      obtain ⟨m, rfl⟩ := hleft.int
      obtain ⟨y, rfl⟩ := hright.float
      exact .inr (.inl ⟨m, y, rfl, rfl, rfl⟩)
  | floatInt =>
      obtain ⟨x, rfl⟩ := hleft.float
      obtain ⟨n, rfl⟩ := hright.int
      exact .inr (.inr (.inl ⟨x, n, rfl, rfl, rfl⟩))
  | floats =>
      obtain ⟨x, rfl⟩ := hleft.float
      obtain ⟨y, rfl⟩ := hright.float
      exact .inr (.inr (.inr ⟨x, y, rfl, rfl, rfl⟩))

theorem BinaryOp.arithmetic_widened (op : BinaryOp) (property : Except RuntimeFault Value → Prop)
    {onInts : Int64 → Int64 → Except RuntimeFault Value}
    {onDoubles : Double → Double → Except RuntimeFault Value}
    (widens : leftTy.Widens rightTy ty) (hleft : left.Has types leftTy)
    (hright : right.Has types rightTy) (hints : ty = .int → ∀ a b, property (onInts a b))
    (hdoubles : ty = .float → ∀ x y, property (onDoubles x y)) :
    property (op.arithmetic onInts onDoubles left right) := by
  rcases hleft.numbers hright widens with
    ⟨m, n, rfl, rfl, hty⟩ | ⟨m, y, rfl, rfl, hty⟩ | ⟨x, n, rfl, rfl, hty⟩ | ⟨x, y, rfl, rfl, hty⟩
  · exact hints hty _ _
  · exact hdoubles hty _ _
  · exact hdoubles hty _ _
  · exact hdoubles hty _ _

theorem BinaryOp.arithmetic_comes (op : BinaryOp)
    {onInts : Int64 → Int64 → Except RuntimeFault Value}
    {onDoubles : Double → Double → Except RuntimeFault Value}
    (widens : leftTy.Widens rightTy ty) (hleft : left.Has types leftTy)
    (hright : right.Has types rightTy) (hints : ∀ a b, Comes types .int (onInts a b))
    (hdoubles : ∀ x y, Comes types .float (onDoubles x y)) :
    Comes types ty (op.arithmetic onInts onDoubles left right) :=
  op.arithmetic_widened (Comes types ty) widens hleft hright (fun hty => hty ▸ hints)
    fun hty => hty ▸ hdoubles

theorem BinaryOp.comparison_comes (op : BinaryOp) {onInts : Int → Int → Bool}
    {onDoubles : Double → Double → Bool} (widens : leftTy.Widens rightTy ty)
    (hleft : left.Has types leftTy) (hright : right.Has types rightTy) :
    Comes types .bool (op.comparison onInts onDoubles left right) :=
  op.arithmetic_widened (Comes types .bool) widens hleft hright (fun _ _ _ => trivial)
    fun _ _ _ => trivial

theorem BinaryOp.floorDivideInts_comes (a b : Int64) : Comes types .int (floorDivideInts a b) := by
  unfold floorDivideInts
  split
  · exact .inr rfl
  · split
    · trivial
    · exact .inl rfl

theorem BinaryOp.floorDivideDoubles_comes (x y : Double) :
    Comes types .int (floorDivideDoubles x y) := by
  unfold floorDivideDoubles
  split
  · exact .inr rfl
  · dsimp only
    split
    · trivial
    · exact .inl rfl

theorem Value.equals?_comes (hoperands : (∃ ty, leftTy.Widens rightTy ty) ∨ leftTy = rightTy)
    (hleft : left.Has types leftTy) (hright : right.Has types rightTy)
    (hsome : leftTy ≠ .nothing) : ∃ same, left.equals? right = some same := by
  rcases hoperands with ⟨ty, widens⟩ | rfl
  · rcases hleft.numbers hright widens with
      ⟨_, _, rfl, rfl, _⟩ | ⟨_, _, rfl, rfl, _⟩ | ⟨_, _, rfl, rfl, _⟩ | ⟨_, _, rfl, rfl, _⟩
    all_goals exact ⟨_, rfl⟩
  · cases leftTy with
    | int =>
        obtain ⟨m, rfl⟩ := hleft.int
        obtain ⟨n, rfl⟩ := hright.int
        exact ⟨_, rfl⟩
    | float =>
        obtain ⟨x, rfl⟩ := hleft.float
        obtain ⟨y, rfl⟩ := hright.float
        exact ⟨_, rfl⟩
    | string =>
        obtain ⟨s, rfl⟩ := hleft.string
        obtain ⟨t, rfl⟩ := hright.string
        exact ⟨_, rfl⟩
    | bool =>
        obtain ⟨b, rfl⟩ := hleft.bool
        obtain ⟨c, rfl⟩ := hright.bool
        exact ⟨_, rfl⟩
    | nothing => exact absurd rfl hsome
    | function params result =>
        obtain ⟨f, rfl, _⟩ := hleft.function
        obtain ⟨g, rfl, _⟩ := hright.function
        exact ⟨_, rfl⟩
    | user name => exact hleft.user.elim

theorem BinaryOp.equality_comes (op : BinaryOp) (wanted : Bool)
    (hoperands : (∃ ty, leftTy.Widens rightTy ty) ∨ leftTy = rightTy)
    (hleft : left.Has types leftTy) (hright : right.Has types rightTy)
    (hsome : leftTy ≠ .nothing) :
    Comes types .bool (op.equality wanted left right) := by
  obtain ⟨same, hsame⟩ := Value.equals?_comes hoperands hleft hright hsome
  simp only [equality, hsame]
  trivial

/-- An operator does what the type of its result says, except that the values of the type none
are no values to compare. -/
theorem BinaryOp.apply_comes {op : BinaryOp} (makes : op.Makes leftTy rightTy ty)
    (hleft : left.Has types leftTy) (hright : right.Has types rightTy)
    (hcompares : op = .equal ∨ op = .notEqual → leftTy ≠ .nothing) :
    Comes types ty (op.apply left right) := by
  have hfloat : ∀ x, Comes types .float (.ok (.float x)) := fun _ => trivial
  cases makes with
  | concat =>
      obtain ⟨s, rfl⟩ := hleft.string
      obtain ⟨t, rfl⟩ := hright.string
      trivial
  | arithmetic hop widens =>
      simp only [List.mem_cons, List.not_mem_nil, or_false] at hop
      rcases hop with rfl | rfl | rfl | rfl
      · have happly : add.apply left right =
            add.arithmetic (fun a b => Value.ofInt (a.toInt + b.toInt))
              (fun x y => .ok (.float (x.add y))) left right := by
          rcases hleft.numbers hright widens with
            ⟨_, _, rfl, rfl, _⟩ | ⟨_, _, rfl, rfl, _⟩ | ⟨_, _, rfl, rfl, _⟩ | ⟨_, _, rfl, rfl, _⟩
          all_goals rfl
        rw [happly]
        exact arithmetic_comes _ widens hleft hright (fun _ _ => Value.ofInt_comes _)
          fun _ _ => hfloat _
      · exact arithmetic_comes _ widens hleft hright (fun _ _ => Value.ofInt_comes _)
          fun _ _ => hfloat _
      · exact arithmetic_comes _ widens hleft hright (fun _ _ => Value.ofInt_comes _)
          fun _ _ => hfloat _
      · refine arithmetic_comes _ widens hleft hright (fun _ b => ?_) fun _ _ => hfloat _
        split
        · exact .inr rfl
        · exact Value.ofInt_comes _
  | floor widens =>
      exact floorDivide.arithmetic_widened (Comes types .int) widens hleft hright
        (fun _ => floorDivideInts_comes) fun _ => floorDivideDoubles_comes
  | same hop =>
      simp only [List.mem_cons, List.not_mem_nil, or_false] at hop
      have hsome := hcompares hop
      rcases hop with rfl | rfl <;> exact equality_comes _ _ (.inr rfl) hleft hright hsome
  | compare hop widens =>
      simp only [List.mem_cons, List.not_mem_nil, or_false] at hop
      have hsome : leftTy ≠ .nothing := by cases widens <;> simp
      rcases hop with rfl | rfl | rfl | rfl | rfl | rfl
      · exact equality_comes _ _ (.inl ⟨_, widens⟩) hleft hright hsome
      · exact equality_comes _ _ (.inl ⟨_, widens⟩) hleft hright hsome
      all_goals
        simp only [apply]
        exact comparison_comes _ widens hleft hright

theorem UnaryOp.apply_comes {op : UnaryOp} {operand : Value} {operandTy : Ty}
    (makes : op.Makes operandTy ty) (hoperand : operand.Has types operandTy) :
    Comes types ty (op.apply operand) := by
  cases makes with
  | int =>
      obtain ⟨n, rfl⟩ := hoperand.int
      exact Value.ofInt_comes _
  | float =>
      obtain ⟨x, rfl⟩ := hoperand.float
      trivial
  | not => trivial

end Operators

end Scriptlet
