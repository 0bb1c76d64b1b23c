import Scriptlet.Proofs.Grammar.Written

/-! When a parser gives a certain answer. Again there is one rule for each way of putting parsers
together. -/

namespace Scriptlet

namespace Parse

variable {α β : Type}

/-- The parser answers the value and stops at the later place. -/
def Gives (parse : Parse α) (before : Cursor) (value : α) (after : Cursor) : Prop :=
  parse before = .ok value after

section Rules

variable {place before middle after : Cursor}

theorem gives_pure {value : α} : Gives (pure value) place value place := rfl

theorem gives_bind {parse : Parse α} {next : α → Parse β} {value : α} {answer : β}
    (hparse : parse.Gives before value middle) (hnext : (next value).Gives middle answer after) :
    (parse >>= next).Gives before answer after := by
  unfold Gives at hparse hnext ⊢
  simp only [bind, EStateM.bind, hparse, hnext]

theorem gives_map {parse : Parse α} {f : α → β} {value : α}
    (h : parse.Gives before value after) : (f <$> parse).Gives before (f value) after := by
  rw [map_eq_pure_bind]
  exact gives_bind h gives_pure

theorem gives_ite {condition : Prop} [Decidable condition] {first second : Parse α} {value : α}
    (hfirst : condition → first.Gives before value after)
    (hsecond : ¬condition → second.Gives before value after) :
    (if condition then first else second).Gives before value after := by
  split
  · exact hfirst ‹_›
  · exact hsecond ‹_›

theorem gives_peek : peek.Gives place place.peek place := rfl

theorem gives_spanFrom (first : Span) :
    (spanFrom first).Gives place (first.upTo place.passed) place := rfl

end Rules

section Tokens

variable {kind : Kind} {token : Token} {place before after : Cursor}

theorem gives_advance (h : Passes kind token before after) : advance.Gives before token after := by
  cases h
  rfl

theorem gives_accept (h : Passes kind token before after) :
    (accept kind).Gives before true after :=
  gives_bind gives_peek (gives_ite (fun _ => gives_bind (gives_advance h) gives_pure)
    fun hne => absurd h.peek_kind hne)

theorem gives_accept_none (h : place.peek.kind ≠ kind) : (accept kind).Gives place false place :=
  gives_bind gives_peek (gives_ite (fun heq => absurd heq h) fun _ => gives_pure)

theorem gives_expect {what : Expected} (h : Passes kind token before after) :
    (expect kind what).Gives before token after :=
  gives_bind gives_peek (gives_ite (fun _ => gives_advance h) fun hne => absurd h.peek_kind hne)

theorem gives_expectName {what : Expected} (h : Passes .identifier token before after) :
    (expectName what).Gives before token.lexeme after :=
  gives_bind (gives_expect h) gives_pure

theorem gives_name {next : String → Parse β} {anonymous : Bool} {name : String} {answer : β}
    {last : Cursor} (h : Names anonymous name before after)
    (hnext : after.peek.kind ≠ .identifier) (hgives : (next name).Gives after answer last) :
    Gives (if before.peek.kind ≠ .identifier then freshName >>= next
      else (·.lexeme) <$> advance >>= next) before answer last := by
  cases h with
  | own hpass =>
      refine gives_ite (fun hne => absurd hpass.peek_kind hne) fun _ => ?_
      exact gives_bind (gives_map (gives_advance hpass)) hgives
  | fresh =>
      have hfresh : Gives freshName before (unnamedFunction before.unnamed)
        { before with unnamed := before.unnamed + 1 } := rfl
      exact gives_ite (fun _ => gives_bind hfresh hgives) fun heq => absurd hnext heq

end Tokens

section Lists

variable {parse : Parse α} {before after : Cursor}

theorem gives_separated {full : Parse (List α)} {items : List α}
    (h : Listed (fun a s t => parse.Gives s a t) items before after) (hne : items ≠ [])
    (hcomma : after.peek.kind ≠ .comma) : (room : Nat) → items.length ≤ room →
    (separated full parse room).Gives before items after := by
  induction h with
  | nil => exact absurd rfl hne
  | one hitem =>
      intro room hroom
      obtain ⟨room, rfl⟩ := Nat.exists_eq_add_one.mpr hroom
      exact gives_bind hitem (gives_bind (gives_accept_none hcomma) gives_pure)
  | more hitem hpass _ ih =>
      intro room hroom
      obtain ⟨room, rfl⟩ :=
        Nat.exists_eq_add_one.mpr (Nat.lt_of_lt_of_le (Nat.zero_lt_succ _) hroom)
      have hrest := ih (by simp) hcomma room (Nat.le_of_succ_le_succ hroom)
      exact gives_bind hitem (gives_bind (gives_accept hpass) (gives_bind hrest gives_pure))

theorem gives_separatedUntil {close : Kind} {full : Parse (List α)} {items : List α} {room : Nat}
    (h : Listed (fun a s t => parse.Gives s a t) items before after)
    (hstart : items ≠ [] → before.peek.kind ≠ close) (hclose : after.peek.kind = close)
    (hcomma : close ≠ .comma) (hroom : items.length ≤ room) :
    (separatedUntil close full parse room).Gives before items after := by
  refine gives_bind gives_peek (gives_ite (fun hpeek => ?_) fun hpeek => ?_)
  · cases items with
    | nil =>
        cases h
        exact gives_pure
    | cons first rest => exact absurd hpeek (hstart (by simp))
  · refine gives_separated h ?_ (hclose ▸ hcomma) room hroom
    rintro rfl
    cases h
    exact hpeek hclose

theorem gives_behind {mark : Kind} {next : Option α → Parse β} {value : Option α} {answer : β}
    {last : Cursor} (h : Behind mark (fun a s t => parse.Gives s a t) value before after)
    (hnext : (next value).Gives after answer last) :
    Gives (accept mark >>= fun given =>
      if given then (some <$> parse) >>= next else pure none >>= next) before answer last := by
  cases h with
  | absent hpeek => exact gives_bind (gives_accept_none hpeek) (gives_bind gives_pure hnext)
  | present hpass hitem =>
      exact gives_bind (gives_accept hpass) (gives_bind (gives_map hitem) hnext)

theorem gives_many {ends : Kind → Bool} {items : List α}
    (h : Sequence (fun a s t => parse.Gives s a t ∧ ¬ends s.peek.kind) items before after)
    (hends : ends after.peek.kind) : (fuel : Nat) → items.length < fuel →
    (many ends parse fuel).Gives before items after := by
  induction h with
  | nil =>
      intro fuel hfuel
      obtain ⟨fuel, rfl⟩ := Nat.exists_eq_add_one.mpr hfuel
      exact gives_bind gives_peek (gives_ite (fun _ => gives_pure) fun hno => absurd hends hno)
  | cons hitem _ ih =>
      intro fuel hfuel
      obtain ⟨fuel, rfl⟩ := Nat.exists_eq_add_one.mpr (Nat.lt_of_le_of_lt (Nat.zero_le _) hfuel)
      have hrest := ih hends fuel (Nat.lt_of_succ_lt_succ hfuel)
      refine gives_bind gives_peek (gives_ite (fun hyes => absurd hyes hitem.2) fun _ => ?_)
      exact gives_bind hitem.1 (gives_bind hrest gives_pure)

end Lists

end Parse

end Scriptlet
