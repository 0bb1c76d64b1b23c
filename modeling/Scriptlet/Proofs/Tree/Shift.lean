import Scriptlet.Proofs.Tree.Labels
import Scriptlet.Token

/-! Trees at another place in the source. More text in front moves every span by the bytes and
the lines of that text, and leaves all else of a tree as it is. -/

namespace Scriptlet

def Span.shift (bytes lines : Nat) (span : Span) : Span :=
  ⟨span.offset + bytes, span.len, span.line + lines⟩

def Token.shift (bytes lines : Nat) (token : Token) : Token :=
  { token with span := token.span.shift bytes lines }

/-- Moves a tree behind more text. -/
def Relabel.shift (bytes lines : Nat) : Relabel := ⟨.shift bytes lines, id, id⟩

section Shift

variable {bytes lines : Nat}

@[simp] theorem Span.shift_zero (span : Span) : span.shift 0 0 = span := rfl

theorem Span.shift_upTo (start finish : Span) :
    (start.upTo finish).shift bytes lines =
      (start.shift bytes lines).upTo (finish.shift bytes lines) := by
  simp only [upTo, stop, shift, Span.mk.injEq, and_true, true_and]
  omega

@[simp] theorem Token.kind_shift (token : Token) : (token.shift bytes lines).kind = token.kind :=
  rfl

@[simp] theorem Token.span_shift (token : Token) :
    (token.shift bytes lines).span = token.span.shift bytes lines := rfl

@[simp] theorem Token.shift_zero (token : Token) : token.shift 0 0 = token := rfl

@[simp] theorem Relabel.span_shift (span : Span) :
    (Relabel.shift bytes lines).span span = span.shift bytes lines := rfl

@[simp] theorem Relabel.name_shift (anonymous : Bool) (name : String) :
    (Relabel.shift bytes lines).name anonymous name = name := by
  cases anonymous <;> rfl

@[simp] theorem Relabel.mark_shift (span : Span) (ty : Option Ty) :
    (Relabel.shift bytes lines).mark ⟨span, ty⟩ = ⟨span.shift bytes lines, ty⟩ := rfl

end Shift

/-! Without more text in front nothing moves. -/

theorem Relabel.shift_zero_keeps (node : Node) : (Relabel.shift 0 0).keeps node := by
  cases node with
  | expr expr => exact rfl
  | stmt stmt => cases stmt <;> first | exact rfl | trivial
  | fn decl => exact ⟨rfl, Relabel.name_shift ..⟩

theorem FnDecl.relabel_zero (decl : FnDecl) : decl.relabel (.shift 0 0) = decl :=
  decl.relabel_keeps Span.shift_zero fun node _ => Relabel.shift_zero_keeps node

theorem Stmt.relabel_zero (stmt : Stmt) : stmt.relabel (.shift 0 0) = stmt :=
  stmt.relabel_keeps Span.shift_zero fun node _ => Relabel.shift_zero_keeps node

end Scriptlet
