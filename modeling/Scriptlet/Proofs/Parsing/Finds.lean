import Scriptlet.Proofs.Grammar.Spelled

/-! What holds of every answer of a parser and of the place where it stops. There is one rule for
each way of putting parsers together, which goes from its steps to the whole. -/

namespace Scriptlet

namespace Parse

variable {α β : Type}

/-- What holds of every answer and of the cursor behind it, on lists that end in an end. -/
def Finds (parse : Parse α) (before : Cursor) (ok : α → Cursor → Prop) : Prop :=
  before.finish.kind = .endOfInput → ∀ value after, parse before = .ok value after →
    after.finish = before.finish ∧ ok value after

section Rules

variable {place : Cursor} {ok : α → Cursor → Prop}

theorem finds_pure {value : α} (h : ok value place) : Finds (pure value) place ok := by
  intro _ value' after heq
  cases heq
  exact ⟨rfl, h⟩

theorem finds_bind {parse : Parse α} {next : α → Parse β} {ok : β → Cursor → Prop}
    (h : parse.Finds place fun value middle => (next value).Finds middle ok) :
    (parse >>= next).Finds place ok := by
  intro hfinish value after heq
  simp only [bind, EStateM.bind] at heq
  split at heq
  · rename_i middle between hmiddle
    obtain ⟨hkeep, hnext⟩ := h hfinish _ _ hmiddle
    obtain ⟨hkeep', hok⟩ := hnext (hkeep ▸ hfinish) _ _ heq
    exact ⟨hkeep'.trans hkeep, hok⟩
  · simp at heq

theorem Finds.mono {parse : Parse α} {other : α → Cursor → Prop} (h : parse.Finds place ok)
    (himp : ∀ value after, ok value after → other value after) : parse.Finds place other :=
  fun hfinish value after heq =>
    have ⟨hkeep, hok⟩ := h hfinish value after heq
    ⟨hkeep, himp value after hok⟩

theorem finds_map {parse : Parse α} {f : α → β} {ok : β → Cursor → Prop}
    (h : parse.Finds place fun value after => ok (f value) after) :
    (f <$> parse).Finds place ok := by
  rw [map_eq_pure_bind]
  exact finds_bind (h.mono fun _ _ hok => finds_pure hok)

theorem finds_ite {condition : Prop} [Decidable condition] {first second : Parse α}
    (hfirst : condition → first.Finds place ok) (hsecond : ¬condition → second.Finds place ok) :
    (if condition then first else second).Finds place ok := by
  split
  · exact hfirst ‹_›
  · exact hsecond ‹_›

theorem finds_failAt (fault : ParseFault) (span : Span) : (failAt fault span).Finds place ok := by
  intro _ value after heq
  cases heq

theorem finds_peek {ok : Token → Cursor → Prop} (h : ok place.peek place) :
    Finds peek place ok := by
  intro _ value after heq
  cases heq
  exact ⟨rfl, h⟩

theorem finds_exhausted : (exhausted : Parse α).Finds place ok :=
  finds_bind (finds_peek (finds_failAt _ _))

theorem finds_spanFrom {first : Span} {ok : Span → Cursor → Prop}
    (h : ok (first.upTo place.passed) place) : (spanFrom first).Finds place ok := by
  intro _ value after heq
  cases heq
  exact ⟨rfl, h⟩

theorem finds_freshName {ok : String → Cursor → Prop}
    (h : ok (unnamedFunction place.unnamed) { place with unnamed := place.unnamed + 1 }) :
    freshName.Finds place ok := by
  intro _ value after heq
  cases heq
  exact ⟨rfl, h⟩

theorem finds_advance {kind : Kind} {ok : Token → Cursor → Prop} (hkind : kind ≠ .endOfInput)
    (hpeek : place.peek.kind = kind)
    (h : ∀ after, Passes kind place.peek place after → ok place.peek after) :
    advance.Finds place ok := by
  intro hfinish value after heq
  obtain ⟨rest, finish, passed, unnamed⟩ := place
  cases rest with
  | nil => exact absurd (hpeek.symm.trans hfinish) hkind
  | cons token rest =>
      cases heq
      exact ⟨rfl, h _ (.intro hpeek)⟩

theorem finds_accept {kind : Kind} {ok : Bool → Cursor → Prop} (hkind : kind ≠ .endOfInput)
    (hyes : ∀ token after, Passes kind token place after → ok true after)
    (hno : place.peek.kind ≠ kind → ok false place) : (accept kind).Finds place ok := by
  refine finds_bind (finds_peek (finds_ite (fun hpeek => ?_) fun hpeek => ?_))
  · exact finds_bind (finds_advance hkind hpeek fun after h => finds_pure (hyes _ after h))
  · exact finds_pure (hno hpeek)

theorem finds_expect {kind : Kind} {what : Expected} {ok : Token → Cursor → Prop}
    (hkind : kind ≠ .endOfInput)
    (h : ∀ token after, Passes kind token place after → ok token after) :
    (expect kind what).Finds place ok := by
  refine finds_bind (finds_peek (finds_ite (fun hpeek => ?_) fun _ => finds_failAt _ _))
  exact finds_advance hkind hpeek fun after hpass => h _ after hpass

theorem finds_expectName {what : Expected} {ok : String → Cursor → Prop}
    (h : ∀ token after, Passes .identifier token place after → ok token.lexeme after) :
    (expectName what).Finds place ok :=
  finds_bind (finds_expect (by decide) fun token after hpass => finds_pure (h token after hpass))

theorem finds_name {next : String → Parse β} {ok : β → Cursor → Prop}
    (h : ∀ name after, Names (place.peek.kind ≠ .identifier) name place after →
      (next name).Finds after ok) :
    Finds (if place.peek.kind ≠ .identifier then freshName >>= next
      else (·.lexeme) <$> advance >>= next) place ok := by
  refine finds_ite (fun hkind => ?_) fun hkind => ?_
  · refine finds_bind (finds_freshName (h _ _ ?_))
    simpa [hkind] using Names.fresh
  · have hkind := Decidable.of_not_not hkind
    refine finds_bind (finds_map (finds_advance (by decide) hkind fun after hpass => h _ _ ?_))
    simpa [hkind] using Names.own hpass

end Rules

section Lists

variable {item : α → Cursor → Cursor → Prop} {parse : Parse α} {place : Cursor}

theorem finds_separated {full : Parse (List α)} (hitem : ∀ place, parse.Finds place (item · place))
    (hfull : ∀ place ok, full.Finds place ok) : (room : Nat) → (place : Cursor) →
    (separated full parse room).Finds place fun items after =>
      items ≠ [] ∧ items.length ≤ room ∧ Listed item items place after
  | 0, place => hfull _ _
  | room + 1, place => by
      refine finds_bind ((hitem place).mono fun first middle hfirst => finds_bind ?_)
      refine finds_accept (by decide) (fun comma after hcomma => ?_) fun _ => ?_
      · refine finds_bind ((finds_separated hitem hfull room after).mono ?_)
        rintro rest last ⟨hne, hlength, hrest⟩
        obtain ⟨next, others, rfl⟩ := List.exists_cons_of_ne_nil hne
        exact finds_pure ⟨by simp, Nat.succ_le_succ hlength, .more hfirst hcomma hrest⟩
      · exact finds_pure ⟨by simp, by simp, .one hfirst⟩

theorem finds_separatedUntil {close : Kind} {full : Parse (List α)}
    (hitem : ∀ place, parse.Finds place (item · place)) (hfull : ∀ place ok, full.Finds place ok)
    (room : Nat) :
    (separatedUntil close full parse room).Finds place fun items after =>
      items.length ≤ room ∧ Listed item items place after := by
  refine finds_bind (finds_peek (finds_ite (fun _ => ?_) fun _ => ?_))
  · exact finds_pure ⟨by simp, .nil⟩
  · exact (finds_separated hitem hfull room place).mono fun items after h => h.2

theorem finds_behind {mark : Kind} {next : Option α → Parse β} {ok : β → Cursor → Prop}
    (hmark : mark ≠ .endOfInput) (hitem : ∀ place, parse.Finds place (item · place))
    (h : ∀ value after, Behind mark item value place after → (next value).Finds after ok) :
    Finds (accept mark >>= fun given =>
      if given then (some <$> parse) >>= next else pure none >>= next) place ok := by
  refine finds_bind (finds_accept hmark (fun token middle hpass => ?_) fun hpeek => ?_)
  · refine finds_bind (finds_map ((hitem middle).mono fun value after hvalue => ?_))
    exact h _ after (.present hpass hvalue)
  · exact finds_bind (finds_pure (h none place (.absent hpeek)))

theorem finds_many {ends : Kind → Bool} (hitem : ∀ place, parse.Finds place (item · place)) :
    (fuel : Nat) → (place : Cursor) → (many ends parse fuel).Finds place fun items after =>
      Sequence item items place after ∧ ends after.peek.kind
  | 0, _ => finds_exhausted
  | fuel + 1, place => by
      refine finds_bind (finds_peek (finds_ite (fun hends => ?_) fun _ => ?_))
      · exact finds_pure ⟨.nil, hends⟩
      · refine finds_bind ((hitem place).mono fun first middle hfirst => ?_)
        refine finds_bind ((finds_many hitem fuel middle).mono ?_)
        rintro rest after ⟨hrest, hends⟩
        exact finds_pure ⟨.cons hfirst hrest, hends⟩

end Lists

end Parse

end Scriptlet
