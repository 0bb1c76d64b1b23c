import Scriptlet.Proofs.Grammar.Readable
import Scriptlet.Proofs.Tree.Shift

/-! Phrases in excerpts. A phrase stays what it is when the tokens behind it are taken away and
when all tokens move in the text alike: nothing in it depends on what comes next, as long as that
does not go on with it, and an end of input never does. -/

namespace Scriptlet

/-- How to make an excerpt of the tokens that are left: the last ones are dropped, the others are
moved, and the excerpt has an end of its own. -/
structure Excerpt where
  bytes : Nat
  lines : Nat
  dropped : Nat
  finish : Token
  ends : finish.kind = .endOfInput

namespace Excerpt

def change (part : Excerpt) : Relabel := .shift part.bytes part.lines

def token (part : Excerpt) (token : Token) : Token := token.shift part.bytes part.lines

def of (part : Excerpt) (cursor : Cursor) : Cursor where
  rest := (cursor.rest.take (cursor.rest.length - part.dropped)).map part.token
  finish := part.finish
  passed := cursor.passed.shift part.bytes part.lines
  unnamed := cursor.unnamed

def Spares (part : Excerpt) (cursor : Cursor) : Prop := part.dropped ≤ cursor.rest.length

variable {part : Excerpt}

theorem peek_kind_of (cursor : Cursor) :
    (part.of cursor).peek.kind = cursor.peek.kind ∨
      (part.of cursor).peek.kind = .endOfInput := by
  have hpeek : (part.of cursor).peek =
      ((cursor.rest.take (cursor.rest.length - part.dropped)).map part.token).head?.getD
        part.finish := rfl
  rw [hpeek, Cursor.peek]
  cases cursor.rest with
  | nil => exact .inr (by simpa using part.ends)
  | cons next rest =>
      cases (next :: rest).length - part.dropped with
      | zero => exact .inr (by simpa using part.ends)
      | succ room => exact .inl (by simp [token])

theorem stops_of {level : Nat} {cursor : Cursor} (h : cursor.peek.kind.Stops level) :
    (part.of cursor).peek.kind.Stops level := by
  have hend : Kind.Stops level .endOfInput := ⟨nofun, fun _ => nofun, fun _ => nofun⟩
  rcases part.peek_kind_of cursor with hpeek | hpeek
  · rwa [hpeek]
  · rwa [hpeek]

end Excerpt

variable {part : Excerpt}

theorem Takes.spares {symbols : List Symbol} {before after : Cursor}
    (h : Takes symbols before after) (hspares : part.Spares after) : part.Spares before := by
  have hlength := h.length
  unfold Excerpt.Spares at hspares ⊢
  omega

theorem Passes.excerpt {kind : Kind} {token : Token} {before after : Cursor}
    (h : Passes kind token before after) (hspares : part.Spares after) :
    Passes kind (part.token token) (part.of before) (part.of after) := by
  cases h with
  | intro hkind =>
      unfold Excerpt.Spares at hspares
      simp only [Excerpt.of, List.length_cons, Nat.succ_sub hspares, List.take_succ_cons,
        List.map_cons]
      exact .intro hkind

theorem Names.excerpt {anonymous : Bool} {name : String} {before after : Cursor}
    (h : Names anonymous name before after) (hspares : part.Spares after) :
    Names anonymous (part.change.name anonymous name) (part.of before)
      (part.of after) := by
  rw [Excerpt.change, Relabel.name_shift]
  cases h with
  | own hpass =>
      have hname := Names.own (hpass.excerpt hspares)
      exact hname
  | fresh =>
      have hname : Names true _ (part.of before) _ := .fresh
      exact hname

theorem Behind.excerpt_absent {α : Type} {item : α → Cursor → Cursor → Prop} {mark : Kind}
    {place : Cursor} (h : place.peek.kind ≠ mark) (hmark : .endOfInput ≠ mark) :
    Behind mark item none (part.of place) (part.of place) := by
  refine .absent ?_
  rcases part.peek_kind_of place with hpeek | hpeek
  · rwa [hpeek]
  · rwa [hpeek]

theorem Excerpt.change_upTo (start : Span) (place : Cursor) :
    part.change.span (start.upTo place.passed) =
      (part.change.span start).upTo (part.of place).passed :=
  Span.shift_upTo _ _

mutual

theorem TypeExpr.Spelled.excerpt {written : TypeExpr} {before after : Cursor} :
    written.Spelled before after → part.Spares after →
      (written.relabel part.change).Spelled (part.of before) (part.of after)
  | .named h, hspares => .named (h.excerpt hspares)
  | .function hword hopening hparams hclosing hresult, hspares => by
      have hfourth := (TypeExpr.behind_takes hresult).takes.spares hspares
      have hthird := hclosing.takes.spares hfourth
      have hsecond := (TypeExpr.listed_takes hparams).takes.spares hthird
      have hfirst := hopening.takes.spares hsecond
      rw [TypeExpr.relabel, Excerpt.change_upTo, relabelAll_eq_map, relabel?_eq_map]
      exact .function (hword.excerpt hfirst) (hopening.excerpt hsecond)
        (TypeExpr.listed_excerpt hparams hthird) (hclosing.excerpt hfourth)
        (TypeExpr.behind_excerpt hresult hspares nofun)

theorem TypeExpr.listed_excerpt {written : List TypeExpr} {before after : Cursor} :
    Listed TypeExpr.Spelled written before after → part.Spares after →
      Listed TypeExpr.Spelled (written.map (relabel part.change)) (part.of before)
        (part.of after)
  | .nil, _ => .nil
  | .one h, hspares => .one (h.excerpt hspares)
  | .more h hcomma hrest, hspares => by
      have hsecond := (TypeExpr.listed_takes hrest).takes.spares hspares
      exact .more (h.excerpt (hcomma.takes.spares hsecond)) (hcomma.excerpt hsecond)
        (TypeExpr.listed_excerpt hrest hspares)

theorem TypeExpr.behind_excerpt {mark : Kind} {written : Option TypeExpr}
    {before after : Cursor} :
    Behind mark TypeExpr.Spelled written before after → part.Spares after →
      .endOfInput ≠ mark → Behind mark TypeExpr.Spelled (written.map (relabel part.change))
        (part.of before) (part.of after)
  | .absent h, _, hmark => Behind.excerpt_absent h hmark
  | .present hmark h, hspares, _ =>
      .present (hmark.excerpt (h.takes.spares hspares)) (h.excerpt hspares)

end

theorem Param.Spelled.excerpt {param : Param} {before after : Cursor}
    (h : param.Spelled before after) (hspares : part.Spares after) :
    (param.relabel part.change).Spelled (part.of before) (part.of after) := by
  cases h with
  | intro hname hdeclared =>
      have hmiddle := (TypeExpr.behind_takes hdeclared).takes.spares hspares
      rw [Param.relabel, Excerpt.change_upTo]
      have hcolon : Kind.endOfInput ≠ .colon := by decide
      exact .intro (hname.excerpt hmiddle) (TypeExpr.behind_excerpt hdeclared hspares hcolon)

theorem Param.listed_excerpt {params : List Param} {before after : Cursor}
    (h : Listed Param.Spelled params before after) :
    part.Spares after → Listed Param.Spelled (params.map (relabel part.change))
      (part.of before) (part.of after) := by
  induction h with
  | nil => exact fun _ => .nil
  | one hitem => exact fun hspares => .one (hitem.excerpt hspares)
  | more hitem hcomma hrest ih =>
      intro hspares
      have hsecond := (hrest.imp fun h => h.takes).takes.spares hspares
      exact .more (hitem.excerpt (hcomma.takes.spares hsecond)) (hcomma.excerpt hsecond)
        (ih hspares)

theorem Literal.Spelled.excerpt {value : Literal} {token : Token} {before after : Cursor}
    (h : value.Spelled token before after) (hspares : part.Spares after) :
    value.Spelled (part.token token) (part.of before) (part.of after) := by
  cases h with
  | number h hpayload => exact .number (h.excerpt hspares) hpayload
  | text h hpayload => exact .text (h.excerpt hspares) hpayload
  | yes h => exact .yes (h.excerpt hspares)
  | no h => exact .no (h.excerpt hspares)

theorem Expr.change_upTo (left right : Expr) :
    part.change.span (left.span.upTo right.span) =
      (left.relabel part.change).span.upTo (right.relabel part.change).span := by
  rw [Expr.span_relabel, Expr.span_relabel]
  exact Span.shift_upTo _ _

mutual

theorem Expr.Spelled.excerpt {expr : Expr} {before after : Cursor} :
    expr.Spelled before after → part.Spares after →
      (expr.relabel part.change).Spelled (part.of before) (part.of after)
  | .literal h, hspares => .literal (h.excerpt hspares)
  | .variable h, hspares => .variable (h.excerpt hspares)
  | .assign hname hequal hvalue, hspares => by
      have hsecond := hvalue.written.2.spares hspares
      have hassign := Expr.Spelled.assign (hname.excerpt (hequal.takes.spares hsecond))
        (hequal.excerpt hsecond) (hvalue.excerpt hspares)
      rw [Expr.span_relabel] at hassign
      rw [Expr.relabel, Relabel.mark, Excerpt.change, Relabel.span_shift, Span.shift_upTo]
      exact hassign
  | .group hopening hinner hclosing, hspares => by
      have hsecond := hclosing.takes.spares hspares
      rw [Expr.relabel, Relabel.mark, Excerpt.change_upTo]
      exact .group (hopening.excerpt (hinner.written.2.spares hsecond)) (hinner.excerpt hsecond)
        (hclosing.excerpt hspares)
  | .unary hop hoperand level, hspares => by
      have hunary := Expr.Spelled.unary (hop.excerpt (hoperand.written.2.spares hspares))
        (hoperand.excerpt hspares) (by rwa [Expr.level_relabel])
      rw [Expr.span_relabel] at hunary
      rw [Expr.relabel, Relabel.mark, Excerpt.change, Relabel.span_shift, Span.shift_upTo]
      exact hunary
  | .binary hleft hop hright leftLevel rightLevel, hspares => by
      have hsecond := hright.written.2.spares hspares
      rw [Expr.relabel, Relabel.mark, Expr.change_upTo]
      exact .binary (hleft.excerpt (hop.takes.spares hsecond)) (hop.excerpt hsecond)
        (hright.excerpt hspares) (by rwa [Expr.level_relabel]) (by rwa [Expr.level_relabel])
  | .call hcallee hopening hargs hclosing level arity, hspares => by
      have hthird := hclosing.takes.spares hspares
      have hsecond := ((Expr.listed_written hargs).imp fun h => h.2).takes.spares hthird
      have hfirst := hopening.takes.spares hsecond
      rw [Expr.relabel, Relabel.mark, Excerpt.change_upTo, ← Expr.span_relabel,
        Expr.relabelAll_eq_map]
      exact .call (hcallee.excerpt hfirst) (hopening.excerpt hsecond)
        (Expr.listed_excerpt hargs hthird) (hclosing.excerpt hspares)
        (by rwa [Expr.level_relabel]) (by rwa [List.length_map])
  | .function hword hdecl, hspares => by
      obtain ⟨hmiddle, hdecl⟩ := hdecl.excerpt hspares
      rw [Expr.relabel, Relabel.mark, ← FnDecl.span_relabel]
      exact .function (hword.excerpt hmiddle) hdecl

theorem Expr.listed_excerpt {exprs : List Expr} {before after : Cursor} :
    Listed Expr.Spelled exprs before after → part.Spares after →
      Listed Expr.Spelled (exprs.map (Expr.relabel part.change)) (part.of before)
        (part.of after)
  | .nil, _ => .nil
  | .one h, hspares => .one (h.excerpt hspares)
  | .more h hcomma hrest, hspares => by
      have hsecond :=
        ((Expr.listed_written hrest).imp fun h => h.2).takes.spares hspares
      exact .more (h.excerpt (hcomma.takes.spares hsecond)) (hcomma.excerpt hsecond)
        (Expr.listed_excerpt hrest hspares)

theorem Expr.behind_excerpt {expr : Option Expr} {before after : Cursor} :
    Behind .equal Expr.Spelled expr before after → part.Spares after →
      Behind .equal Expr.Spelled (expr.map (Expr.relabel part.change)) (part.of before)
        (part.of after)
  | .absent h, _ => Behind.excerpt_absent h nofun
  | .present hmark h, hspares =>
      .present (hmark.excerpt (h.written.2.spares hspares)) (h.excerpt hspares)

theorem FnDecl.Spelled.excerpt {decl : FnDecl} {start : Span} {before after : Cursor} :
    decl.Spelled start before after → part.Spares after → part.Spares before ∧
      (decl.relabel part.change).Spelled (part.change.span start) (part.of before)
        (part.of after)
  | .intro hname hopening hparams hclosing hresult hbody arity, hspares => by
      have hfifth := hbody.written.2.spares hspares
      have hfourth := (TypeExpr.behind_takes hresult).takes.spares hfifth
      have hthird := hclosing.takes.spares hfourth
      have hsecond := (hparams.imp fun h => h.takes).takes.spares hthird
      have hfirst := hopening.takes.spares hsecond
      refine ⟨hname.takes.spares hfirst, ?_⟩
      rw [FnDecl.relabel, Relabel.mark, Excerpt.change_upTo, Stmt.relabelAll_eq_map,
        ← Block.statements_relabel]
      exact .intro (hname.excerpt hfirst) (hopening.excerpt hsecond)
        (Param.listed_excerpt hparams hthird) (hclosing.excerpt hfourth)
        (TypeExpr.behind_excerpt hresult hfifth nofun) (hbody.excerpt hspares)
        (by rwa [List.length_map])

theorem Block.Spelled.excerpt {block : Block} {before after : Cursor} :
    block.Spelled before after → part.Spares after →
      (block.relabel part.change).Spelled (part.of before) (part.of after)
  | .intro hopening hstatements hclosing, hspares => by
      have hsecond := hclosing.takes.spares hspares
      have hfirst := (Stmt.sequence_written hstatements).2.spares hsecond
      rw [Block.relabel, Excerpt.change_upTo, Stmt.relabelAll_eq_map]
      exact .intro (hopening.excerpt hfirst) (Stmt.sequence_excerpt hstatements hsecond)
        (hclosing.excerpt hspares)

theorem Stmt.Spelled.excerpt {stmt : Stmt} {before after : Cursor} :
    stmt.Spelled before after → part.Spares after →
      (stmt.relabel part.change).Spelled (part.of before) (part.of after)
  | .expression hexpr start stop, hspares => by
      refine .expression (hexpr.excerpt hspares) ?_ (Excerpt.stops_of stop)
      rcases part.peek_kind_of before with hpeek | hpeek
      · rwa [hpeek]
      · rw [hpeek]
        decide
  | .binding hword hname hdeclared hinit stop, hspares => by
      have hthird := ((Expr.behind_written hinit).imp fun h => h.2).takes.spares hspares
      have hsecond := (TypeExpr.behind_takes hdeclared).takes.spares hthird
      rw [Stmt.relabel, Relabel.mark, Excerpt.change_upTo, Expr.relabel?_eq_map]
      have hbinding := Stmt.Spelled.binding (hword.excerpt (hname.takes.spares hsecond))
        (hname.excerpt hsecond) (TypeExpr.behind_excerpt hdeclared hthird nofun)
        (Expr.behind_excerpt hinit hspares)
        fun hsome => Excerpt.stops_of (stop (by rwa [Option.isSome_map] at hsome))
      exact hbinding
  | .block hblock, hspares => .block (hblock.excerpt hspares)
  | .conditional hword hcondition hthen hotherwise branch, hspares => by
      have hthird := ((Stmt.behind_written hotherwise).imp fun h => h.2).takes.spares hspares
      have hsecond := hthen.written.2.spares hthird
      have hfirst := hcondition.written.2.spares hsecond
      rw [Stmt.relabel, Excerpt.change_upTo, Stmt.relabel?_eq_map]
      refine .conditional (hword.excerpt hfirst) (hcondition.excerpt hsecond)
        (hthen.excerpt hthird) (Stmt.behind_excerpt hotherwise hspares) fun stmt hstmt => ?_
      obtain ⟨written, hwritten, rfl⟩ := Option.map_eq_some_iff.mp hstmt
      rw [Stmt.isBranch_relabel]
      exact branch written hwritten
  | .loop hword hcondition hbody, hspares => by
      have hsecond := hbody.written.2.spares hspares
      rw [Stmt.relabel, Excerpt.change_upTo]
      exact .loop (hword.excerpt (hcondition.written.2.spares hsecond))
        (hcondition.excerpt hsecond) (hbody.excerpt hspares)
  | .function hword hdecl, hspares => by
      obtain ⟨hmiddle, hdecl⟩ := hdecl.excerpt hspares
      exact .function (hword.excerpt hmiddle) hdecl
  | .finish hword stop, hspares => by
      rw [Stmt.relabel, Excerpt.change_upTo]
      refine .finish (hword.excerpt hspares) ?_
      rcases part.peek_kind_of _ with hpeek | hpeek
      · rwa [hpeek]
      · exact .inr hpeek
  | .ret hword hvalue stop, hspares => by
      rw [Stmt.relabel, Excerpt.change_upTo]
      exact .ret (hword.excerpt (hvalue.written.2.spares hspares)) (hvalue.excerpt hspares)
        (Excerpt.stops_of stop)

theorem Stmt.behind_excerpt {stmt : Option Stmt} {before after : Cursor} :
    Behind .elseWord Stmt.Spelled stmt before after → part.Spares after →
      Behind .elseWord Stmt.Spelled (stmt.map (Stmt.relabel part.change)) (part.of before)
        (part.of after)
  | .absent h, _ => Behind.excerpt_absent h nofun
  | .present hmark h, hspares =>
      .present (hmark.excerpt (h.written.2.spares hspares)) (h.excerpt hspares)

theorem Stmt.sequence_excerpt {stmts : List Stmt} {before after : Cursor} :
    Sequence Stmt.Spelled stmts before after → part.Spares after →
      Sequence Stmt.Spelled (stmts.map (Stmt.relabel part.change)) (part.of before)
        (part.of after)
  | .nil, _ => .nil
  | .cons hstmt hrest, hspares =>
      .cons (hstmt.excerpt ((Stmt.sequence_written hrest).2.spares hspares))
        (Stmt.sequence_excerpt hrest hspares)

end

end Scriptlet
