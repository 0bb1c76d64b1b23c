import Scriptlet.Proofs.Data.Written
import Scriptlet.Proofs.Tree.Untyped
import Scriptlet.Syntax.Json

/-! The data of a tree says everything about it but the types. Nodes of different shapes are told
apart by the shape that each names first, and nodes of one shape by their fields. -/

namespace Scriptlet

/-! Numbers that are written without a sign. An infinite one has no text of its own, but there is
only one. -/

/-- The number is one that can be written without a sign. -/
def Double.IsUnsigned : Double → Prop
  | .nan => False
  | .infinite negative | .finite negative _ _ => negative = false

def Literal.IsUnsigned : Literal → Prop
  | .float value => value.IsUnsigned
  | _ => True

def Node.IsUnsigned : Node → Prop
  | .expr (.literal value _) => value.IsUnsigned
  | _ => True

def Unsigned (nodes : List Node) : Prop := ∀ node ∈ nodes, node.IsUnsigned

section Unsigned

variable {node : Node} {nodes first second : List Node}

@[simp] theorem unsigned_nil : Unsigned [] := by simp [Unsigned]

@[simp] theorem unsigned_cons :
    Unsigned (node :: nodes) ↔ node.IsUnsigned ∧ Unsigned nodes := by simp [Unsigned]

@[simp] theorem unsigned_append :
    Unsigned (first ++ second) ↔ Unsigned first ∧ Unsigned second := List.forall_mem_append

end Unsigned

/-! The shapes of nodes. -/

namespace Json

def shape? : Json → Option String
  | .object ((_, .string shape) :: _) => some shape
  | _ => none

end Json

def Expr.shape : Expr → String
  | .literal .. => "Literal"
  | .variable .. => "Variable"
  | .assign .. => "Assign"
  | .group .. => "Grouping"
  | .unary .. => "Unary"
  | .binary .. => "Binary"
  | .call .. => "Call"
  | .function .. => "Function"

def Stmt.shape : Stmt → String
  | .expression .. => "Expression"
  | .binding .. => "Let"
  | .block .. => "Block"
  | .conditional .. => "If"
  | .loop .. => "While"
  | .function .. => "Fn"
  | .ret .. => "Return"

theorem Expr.shape?_json (expr : Expr) : expr.json.kept.shape? = some expr.shape := by
  cases expr <;> rfl

theorem Stmt.shape?_json (stmt : Stmt) : stmt.json.kept.shape? = some stmt.shape := by
  cases stmt with
  | binding name declared init mark => cases init <;> rfl
  | conditional condition thenBlock otherwise span => cases otherwise <;> rfl
  | ret value span => cases value <;> rfl
  | block block =>
      cases block
      rfl
  | function decl =>
      cases decl
      rfl
  | _ => rfl

theorem Expr.shape_eq {expr other : Expr} (h : expr.json.kept = other.json.kept) :
    expr.shape = other.shape := by
  have hshape := congrArg Json.shape? h
  rw [shape?_json, shape?_json] at hshape
  exact Option.some.inj hshape

theorem Stmt.shape_eq {stmt other : Stmt} (h : stmt.json.kept = other.json.kept) :
    stmt.shape = other.shape := by
  have hshape := congrArg Json.shape? h
  rw [shape?_json, shape?_json] at hshape
  exact Option.some.inj hshape

/-! The parts of nodes. -/

section Parts

theorem Span.json_injective {span other : Span} (h : span.json.kept = other.json.kept) :
    span = other := by
  obtain ⟨offset, len, line⟩ := span
  obtain ⟨offset', len', line'⟩ := other
  simp only [json, Json.kept, Json.keptFields, Json.object.injEq, List.cons.injEq, Prod.mk.injEq,
    Json.int.injEq, Int.natCast_inj, true_and, and_true] at h
  obtain ⟨rfl, rfl, rfl⟩ := h
  rfl

theorem Mark.untyped_eq {mark other : Mark} (h : mark.span.json.kept = other.span.json.kept) :
    Relabel.untyped.mark mark = Relabel.untyped.mark other := by
  rw [Relabel.mark, Relabel.mark, Span.json_injective h]
  rfl

theorem UnaryOp.name_injective {op other : UnaryOp} (h : op.name = other.name) : op = other := by
  cases op <;> cases other <;> first | rfl | simp [name] at h

theorem BinaryOp.name_injective {op other : BinaryOp} (h : op.name = other.name) :
    op = other := by
  cases op <;> cases other <;> first | rfl | simp [name] at h

theorem Double.kept_injective {x y : Double} (hx : x.IsUnsigned) (hy : y.IsUnsigned)
    (h : Json.keptFloat x = Json.keptFloat y) : x = y := by
  cases x with
  | nan => cases hx
  | infinite negative =>
      obtain rfl : negative = false := hx
      cases y with
      | nan => cases hy
      | infinite negative' =>
          obtain rfl : negative' = false := hy
          rfl
      | finite => cases h
  | finite negative units h' =>
      cases y with
      | nan => cases hy
      | infinite => cases h
      | finite => exact Json.float.inj h

theorem Literal.json_injective {value other : Literal} (hvalue : value.IsUnsigned)
    (hother : other.IsUnsigned) (h : value.json.kept = other.json.kept) : value = other := by
  cases value <;> cases other <;>
    simp only [json, Json.kept, Json.keptFields, Json.object.injEq, List.cons.injEq,
      Prod.mk.injEq, Json.int.injEq, Json.string.injEq, Json.bool.injEq, String.reduceEq,
      false_and, and_true, true_and] at h
  · rw [Int64.toInt_inj.mp h]
  · rw [Double.kept_injective hvalue hother h]
  · rw [h]
  · rw [h]

end Parts

section TypeExpr

theorem TypeExpr.json_function (params : List TypeExpr) (result : Option TypeExpr) (span : Span) :
    (function params result span).json = .object [("type", .string "Function"),
      ("params", .array (jsons params)), ("ret", json? result), ("span", span.json)] := by
  cases result <;> rfl

theorem TypeExpr.json_ne_null (written : TypeExpr) : written.json.kept ≠ .null := by
  cases written with
  | named => nofun
  | function params result span =>
      rw [json_function]
      nofun

mutual

theorem TypeExpr.json_injective : (written other : TypeExpr) →
    written.json.kept = other.json.kept → written = other
  | .named name span, other, h => by
      cases other with
      | named name' span' =>
          simp only [json, Json.kept, Json.keptFields, Json.object.injEq, List.cons.injEq,
            Prod.mk.injEq, Json.string.injEq, true_and, and_true] at h
          obtain ⟨rfl, hspan⟩ := h
          rw [Span.json_injective hspan]
      | function params result span' =>
          rw [json_function] at h
          simp [json, Json.kept, Json.keptFields] at h
  | .function params result span, other, h => by
      cases other with
      | named name span' =>
          rw [json_function] at h
          simp [json, Json.kept, Json.keptFields] at h
      | function params' result' span' =>
          simp only [json_function, Json.kept, Json.keptFields, Json.object.injEq,
            List.cons.injEq, Prod.mk.injEq, Json.array.injEq, true_and, and_true] at h
          obtain ⟨hparams, hresult, hspan⟩ := h
          rw [jsons_injective params params' hparams, json?_injective result result' hresult,
            Span.json_injective hspan]

theorem TypeExpr.jsons_injective : (written other : List TypeExpr) →
    Json.keptItems (jsons written) = Json.keptItems (jsons other) → written = other
  | [], [], _ => rfl
  | [], _ :: _, h => by cases h
  | _ :: _, [], h => by cases h
  | first :: rest, first' :: rest', h => by
      obtain ⟨hfirst, hrest⟩ := List.cons.inj h
      rw [json_injective first first' hfirst, jsons_injective rest rest' hrest]

theorem TypeExpr.json?_injective : (written other : Option TypeExpr) →
    (json? written).kept = (json? other).kept → written = other
  | none, none, _ => rfl
  | none, some other, h => absurd h.symm other.json_ne_null
  | some written, none, h => absurd h written.json_ne_null
  | some written, some other, h => by rw [json_injective written other h]

end

theorem Param.jsons_injective : (params others : List Param) →
    Json.keptItems (params.map json) = Json.keptItems (others.map json) → params = others
  | [], [], _ => rfl
  | [], _ :: _, h => by cases h
  | _ :: _, [], h => by cases h
  | ⟨name, declared, span⟩ :: rest, ⟨name', declared', span'⟩ :: rest', h => by
      obtain ⟨hfirst, hrest⟩ := List.cons.inj h
      simp only [json, Json.kept, Json.keptFields, Json.object.injEq, List.cons.injEq,
        Prod.mk.injEq, Json.string.injEq, true_and, and_true] at hfirst
      obtain ⟨rfl, hdeclared, hspan⟩ := hfirst
      rw [TypeExpr.json?_injective declared declared' hdeclared, Span.json_injective hspan,
        jsons_injective rest rest' hrest]

end TypeExpr

/-! Parts that may be left out. -/

def Expr.json? : Option Expr → Json
  | none => .null
  | some expr => expr.json

def Stmt.json? : Option Stmt → Json
  | none => .null
  | some stmt => stmt.json

section Optional

variable {name : String} {declared : Option TypeExpr} {init : Option Expr} {condition : Expr}
  {thenBlock : Block} {otherwise : Option Stmt} {mark : Mark} {span : Span}

theorem Stmt.json_binding : (binding name declared init mark).json =
    .object [("type", .string "Let"), ("name", .string name),
      ("annotation", TypeExpr.json? declared), ("initializer", Expr.json? init),
      ("span", mark.span.json)] := by
  cases init <;> rfl

theorem Stmt.json_conditional : (conditional condition thenBlock otherwise span).json =
    .object [("type", .string "If"), ("condition", condition.json),
      ("then_branch", .object thenBlock.fields), ("else_branch", Stmt.json? otherwise),
      ("span", span.json)] := by
  cases otherwise <;> rfl

theorem Stmt.json_ret : (ret init span).json =
    .object [("type", .string "Return"), ("value", Expr.json? init), ("span", span.json)] := by
  cases init <;> rfl

theorem Stmt.nodes_binding : (binding name declared init mark).nodes =
    .stmt (.binding name declared init mark) :: (init.map Expr.nodes).getD [] := by
  cases init <;> rfl

theorem Stmt.nodes_ret :
    (ret init span).nodes = .stmt (.ret init span) :: (init.map Expr.nodes).getD [] := by
  cases init <;> rfl

theorem Expr.json_ne_null (expr : Expr) : expr.json.kept ≠ .null := by
  cases expr <;> nofun

theorem Stmt.json_ne_null (stmt : Stmt) : stmt.json.kept ≠ .null := by
  intro h
  have hshape := stmt.shape?_json
  rw [h] at hshape
  cases hshape

end Optional

section Nodes

mutual

theorem Expr.json_injective : (expr other : Expr) → Unsigned expr.nodes → Unsigned other.nodes →
    expr.json.kept = other.json.kept → expr.relabel .untyped = other.relabel .untyped
  | .literal value mark, other, hexpr, hother, h => by
      have hshape := Expr.shape_eq h
      cases other with
      | literal value' mark' =>
          obtain ⟨hvalue, hspan⟩ : value.json.kept = value'.json.kept ∧
              mark.span.json.kept = mark'.span.json.kept := by simpa [Expr.json] using h
          have hsame := Literal.json_injective (unsigned_cons.mp hexpr).1
            (unsigned_cons.mp hother).1 hvalue
          simp only [Expr.relabel, hsame, Mark.untyped_eq hspan]
      | _ => simp [Expr.shape] at hshape
  | .variable name mark, other, _, _, h => by
      have hshape := Expr.shape_eq h
      cases other with
      | «variable» name' mark' =>
          obtain ⟨hname, hspan⟩ : name = name' ∧
              mark.span.json.kept = mark'.span.json.kept := by simpa [Expr.json] using h
          simp only [Expr.relabel, hname, Mark.untyped_eq hspan]
      | _ => simp [Expr.shape] at hshape
  | .assign name value mark, other, hexpr, hother, h => by
      have hshape := Expr.shape_eq h
      cases other with
      | assign name' value' mark' =>
          obtain ⟨hname, hvalue, hspan⟩ : name = name' ∧ value.json.kept = value'.json.kept ∧
              mark.span.json.kept = mark'.span.json.kept := by simpa [Expr.json] using h
          have hsame := Expr.json_injective value value' (unsigned_cons.mp hexpr).2
            (unsigned_cons.mp hother).2 hvalue
          simp only [Expr.relabel, hname, hsame, Mark.untyped_eq hspan]
      | _ => simp [Expr.shape] at hshape
  | .group inner mark, other, hexpr, hother, h => by
      have hshape := Expr.shape_eq h
      cases other with
      | group inner' mark' =>
          obtain ⟨hinner, hspan⟩ : inner.json.kept = inner'.json.kept ∧
              mark.span.json.kept = mark'.span.json.kept := by simpa [Expr.json] using h
          have hsame := Expr.json_injective inner inner' (unsigned_cons.mp hexpr).2
            (unsigned_cons.mp hother).2 hinner
          simp only [Expr.relabel, hsame, Mark.untyped_eq hspan]
      | _ => simp [Expr.shape] at hshape
  | .unary op operand mark, other, hexpr, hother, h => by
      have hshape := Expr.shape_eq h
      cases other with
      | unary op' operand' mark' =>
          obtain ⟨hop, hoperand, hspan⟩ : op.name = op'.name ∧
              operand.json.kept = operand'.json.kept ∧
              mark.span.json.kept = mark'.span.json.kept := by simpa [Expr.json] using h
          have hsame := Expr.json_injective operand operand' (unsigned_cons.mp hexpr).2
            (unsigned_cons.mp hother).2 hoperand
          simp only [Expr.relabel, UnaryOp.name_injective hop, hsame, Mark.untyped_eq hspan]
      | _ => simp [Expr.shape] at hshape
  | .binary op left right mark, other, hexpr, hother, h => by
      have hshape := Expr.shape_eq h
      cases other with
      | binary op' left' right' mark' =>
          obtain ⟨hleft, hop, hright, hspan⟩ : left.json.kept = left'.json.kept ∧
              op.name = op'.name ∧ right.json.kept = right'.json.kept ∧
              mark.span.json.kept = mark'.span.json.kept := by simpa [Expr.json] using h
          simp only [Expr.nodes, unsigned_cons, unsigned_append] at hexpr hother
          have hsame := Expr.json_injective left left' hexpr.2.1 hother.2.1 hleft
          have hsame' := Expr.json_injective right right' hexpr.2.2 hother.2.2 hright
          simp only [Expr.relabel, BinaryOp.name_injective hop, hsame, hsame',
            Mark.untyped_eq hspan]
      | _ => simp [Expr.shape] at hshape
  | .call callee args mark, other, hexpr, hother, h => by
      have hshape := Expr.shape_eq h
      cases other with
      | call callee' args' mark' =>
          obtain ⟨hcallee, hargs, hspan⟩ : callee.json.kept = callee'.json.kept ∧
              Json.keptItems (Expr.jsons args) = Json.keptItems (Expr.jsons args') ∧
              mark.span.json.kept = mark'.span.json.kept := by simpa [Expr.json] using h
          simp only [Expr.nodes, unsigned_cons, unsigned_append] at hexpr hother
          have hsame := Expr.json_injective callee callee' hexpr.2.1 hother.2.1 hcallee
          have hsames := Expr.jsons_injective args args' hexpr.2.2 hother.2.2 hargs
          simp only [Expr.relabel, hsame, Expr.relabelAll_eq_map, hsames, Mark.untyped_eq hspan]
      | _ => simp [Expr.shape] at hshape
  | .function decl mark, other, hexpr, hother, h => by
      have hshape := Expr.shape_eq h
      cases other with
      | function decl' mark' =>
          obtain ⟨hdecl, hspan⟩ : Json.keptFields decl.fields = Json.keptFields decl'.fields ∧
              mark.span.json.kept = mark'.span.json.kept := by simpa [Expr.json] using h
          have hsame := FnDecl.fields_injective decl decl' (unsigned_cons.mp hexpr).2
            (unsigned_cons.mp hother).2 hdecl
          simp only [Expr.relabel, hsame, Mark.untyped_eq hspan]
      | _ => simp [Expr.shape] at hshape

theorem Expr.jsons_injective : (exprs others : List Expr) → Unsigned (Expr.allNodes exprs) →
    Unsigned (Expr.allNodes others) →
    Json.keptItems (Expr.jsons exprs) = Json.keptItems (Expr.jsons others) →
    exprs.map (Expr.relabel .untyped) = others.map (Expr.relabel .untyped)
  | [], [], _, _, _ => rfl
  | [], _ :: _, _, _, h => by cases h
  | _ :: _, [], _, _, h => by cases h
  | expr :: rest, other :: rest', hexprs, hothers, h => by
      obtain ⟨hexpr, hrest⟩ := List.cons.inj h
      simp only [Expr.allNodes, unsigned_append] at hexprs hothers
      rw [List.map_cons, List.map_cons, Expr.json_injective expr other hexprs.1 hothers.1 hexpr,
        Expr.jsons_injective rest rest' hexprs.2 hothers.2 hrest]

theorem Expr.json?_injective : (expr other : Option Expr) →
    Unsigned ((expr.map Expr.nodes).getD []) → Unsigned ((other.map Expr.nodes).getD []) →
    (Expr.json? expr).kept = (Expr.json? other).kept →
    expr.map (Expr.relabel .untyped) = other.map (Expr.relabel .untyped)
  | none, none, _, _, _ => rfl
  | none, some other, _, _, h => absurd h.symm other.json_ne_null
  | some expr, none, _, _, h => absurd h expr.json_ne_null
  | some expr, some other, hexpr, hother, h =>
      congrArg some (Expr.json_injective expr other hexpr hother h)

theorem FnDecl.fields_injective : (decl other : FnDecl) → Unsigned decl.nodes →
    Unsigned other.nodes → Json.keptFields decl.fields = Json.keptFields other.fields →
    decl.relabel .untyped = other.relabel .untyped
  | ⟨name, anonymous, params, result, body, mark⟩,
    ⟨name', anonymous', params', result', body', mark'⟩, hdecl, hother, h => by
      obtain ⟨hname, hanonymous, hparams, hresult, hbody, hspan⟩ : name = name' ∧
          anonymous = anonymous' ∧
          Json.keptItems (params.map Param.json) = Json.keptItems (params'.map Param.json) ∧
          (TypeExpr.json? result).kept = (TypeExpr.json? result').kept ∧
          Json.keptItems (Stmt.jsons body) = Json.keptItems (Stmt.jsons body') ∧
          mark.span.json.kept = mark'.span.json.kept := by simpa [FnDecl.fields] using h
      have hsames := Stmt.jsons_injective body body' (unsigned_cons.mp hdecl).2
        (unsigned_cons.mp hother).2 hbody
      simp only [FnDecl.relabel, Stmt.relabelAll_eq_map, hname, hanonymous,
        Param.jsons_injective params params' hparams,
        TypeExpr.json?_injective result result' hresult, hsames, Mark.untyped_eq hspan]

theorem Stmt.json_injective : (stmt other : Stmt) → Unsigned stmt.nodes → Unsigned other.nodes →
    stmt.json.kept = other.json.kept → stmt.relabel .untyped = other.relabel .untyped
  | .expression expr, other, hstmt, hother, h => by
      have hshape := Stmt.shape_eq h
      cases other with
      | expression expr' =>
          obtain ⟨hexpr, -⟩ : expr.json.kept = expr'.json.kept ∧
              expr.span.json.kept = expr'.span.json.kept := by simpa [Stmt.json] using h
          have hsame := Expr.json_injective expr expr' (unsigned_cons.mp hstmt).2
            (unsigned_cons.mp hother).2 hexpr
          simp only [Stmt.relabel, hsame]
      | _ => simp [Stmt.shape] at hshape
  | .binding name declared init mark, other, hstmt, hother, h => by
      have hshape := Stmt.shape_eq h
      cases other with
      | binding name' declared' init' mark' =>
          obtain ⟨hname, hdeclared, hinit, hspan⟩ : name = name' ∧
              (TypeExpr.json? declared).kept = (TypeExpr.json? declared').kept ∧
              (Expr.json? init).kept = (Expr.json? init').kept ∧
              mark.span.json.kept = mark'.span.json.kept := by simpa [Stmt.json_binding] using h
          rw [Stmt.nodes_binding, unsigned_cons] at hstmt hother
          have hsame := Expr.json?_injective init init' hstmt.2 hother.2 hinit
          simp only [Stmt.relabel, Expr.relabel?_eq_map, hname,
            TypeExpr.json?_injective declared declared' hdeclared, hsame, Mark.untyped_eq hspan]
      | _ => simp [Stmt.shape] at hshape
  | .block block, other, hstmt, hother, h => by
      have hshape := Stmt.shape_eq h
      cases other with
      | block block' =>
          have hfields : Json.keptFields block.fields = Json.keptFields block'.fields := by
            simpa [Stmt.json] using h
          have hsame := Block.fields_injective block block' (unsigned_cons.mp hstmt).2
            (unsigned_cons.mp hother).2 hfields
          simp only [Stmt.relabel, hsame]
      | _ => simp [Stmt.shape] at hshape
  | .conditional condition thenBlock otherwise span, other, hstmt, hother, h => by
      have hshape := Stmt.shape_eq h
      cases other with
      | conditional condition' thenBlock' otherwise' span' =>
          obtain ⟨hcondition, hthen, helse, hspan⟩ :
              condition.json.kept = condition'.json.kept ∧
              Json.keptFields thenBlock.fields = Json.keptFields thenBlock'.fields ∧
              (Stmt.json? otherwise).kept = (Stmt.json? otherwise').kept ∧
              span.json.kept = span'.json.kept := by simpa [Stmt.json_conditional] using h
          rw [Stmt.nodes_conditional, ← Block.nodes_eq, unsigned_cons, unsigned_append,
            unsigned_append] at hstmt hother
          have hsame := Expr.json_injective condition condition' hstmt.2.1 hother.2.1 hcondition
          have hsame' := Block.fields_injective thenBlock thenBlock' hstmt.2.2.1 hother.2.2.1 hthen
          have hsame'' := Stmt.json?_injective otherwise otherwise' hstmt.2.2.2 hother.2.2.2 helse
          simp only [Stmt.relabel, Stmt.relabel?_eq_map, hsame, hsame', hsame'',
            Span.json_injective hspan]
      | _ => simp [Stmt.shape] at hshape
  | .loop condition body span, other, hstmt, hother, h => by
      have hshape := Stmt.shape_eq h
      cases other with
      | loop condition' body' span' =>
          obtain ⟨hcondition, hbody, hspan⟩ : condition.json.kept = condition'.json.kept ∧
              Json.keptFields body.fields = Json.keptFields body'.fields ∧
              span.json.kept = span'.json.kept := by simpa [Stmt.json] using h
          simp only [Stmt.nodes, unsigned_cons, unsigned_append] at hstmt hother
          have hsame := Expr.json_injective condition condition' hstmt.2.1 hother.2.1 hcondition
          have hsame' := Block.fields_injective body body' hstmt.2.2 hother.2.2 hbody
          simp only [Stmt.relabel, hsame, hsame', Span.json_injective hspan]
      | _ => simp [Stmt.shape] at hshape
  | .function decl, other, hstmt, hother, h => by
      have hshape := Stmt.shape_eq h
      cases other with
      | function decl' =>
          have hfields : Json.keptFields decl.fields = Json.keptFields decl'.fields := by
            simpa [Stmt.json] using h
          have hsame := FnDecl.fields_injective decl decl' (unsigned_cons.mp hstmt).2
            (unsigned_cons.mp hother).2 hfields
          simp only [Stmt.relabel, hsame]
      | _ => simp [Stmt.shape] at hshape
  | .ret value span, other, hstmt, hother, h => by
      have hshape := Stmt.shape_eq h
      cases other with
      | ret value' span' =>
          obtain ⟨hvalue, hspan⟩ : (Expr.json? value).kept = (Expr.json? value').kept ∧
              span.json.kept = span'.json.kept := by simpa [Stmt.json_ret] using h
          rw [Stmt.nodes_ret, unsigned_cons] at hstmt hother
          have hsame := Expr.json?_injective value value' hstmt.2 hother.2 hvalue
          simp only [Stmt.relabel, Expr.relabel?_eq_map, hsame, Span.json_injective hspan]
      | _ => simp [Stmt.shape] at hshape

theorem Stmt.jsons_injective : (stmts others : List Stmt) → Unsigned (Stmt.allNodes stmts) →
    Unsigned (Stmt.allNodes others) →
    Json.keptItems (Stmt.jsons stmts) = Json.keptItems (Stmt.jsons others) →
    stmts.map (Stmt.relabel .untyped) = others.map (Stmt.relabel .untyped)
  | [], [], _, _, _ => rfl
  | [], _ :: _, _, _, h => by cases h
  | _ :: _, [], _, _, h => by cases h
  | stmt :: rest, other :: rest', hstmts, hothers, h => by
      obtain ⟨hstmt, hrest⟩ := List.cons.inj h
      simp only [Stmt.allNodes, unsigned_append] at hstmts hothers
      rw [List.map_cons, List.map_cons, Stmt.json_injective stmt other hstmts.1 hothers.1 hstmt,
        Stmt.jsons_injective rest rest' hstmts.2 hothers.2 hrest]

theorem Stmt.json?_injective : (stmt other : Option Stmt) →
    Unsigned ((stmt.map Stmt.nodes).getD []) → Unsigned ((other.map Stmt.nodes).getD []) →
    (Stmt.json? stmt).kept = (Stmt.json? other).kept →
    stmt.map (Stmt.relabel .untyped) = other.map (Stmt.relabel .untyped)
  | none, none, _, _, _ => rfl
  | none, some other, _, _, h => absurd h.symm other.json_ne_null
  | some stmt, none, _, _, h => absurd h stmt.json_ne_null
  | some stmt, some other, hstmt, hother, h =>
      congrArg some (Stmt.json_injective stmt other hstmt hother h)

theorem Block.fields_injective : (block other : Block) → Unsigned block.nodes →
    Unsigned other.nodes → Json.keptFields block.fields = Json.keptFields other.fields →
    block.relabel .untyped = other.relabel .untyped
  | ⟨statements, span⟩, ⟨statements', span'⟩, hblock, hother, h => by
      obtain ⟨hstatements, hspan⟩ :
          Json.keptItems (Stmt.jsons statements) = Json.keptItems (Stmt.jsons statements') ∧
          span.json.kept = span'.json.kept := by simpa [Block.fields] using h
      have hsames := Stmt.jsons_injective statements statements' hblock hother hstatements
      simp only [Block.relabel, Stmt.relabelAll_eq_map, hsames, Span.json_injective hspan]

end

end Nodes

end Scriptlet
