import Scriptlet.Proofs.Parsing.Alone
import Scriptlet.Proofs.Parsing.Elsewhere
import Scriptlet.Proofs.Parsing.Lasting

/-! Nothing is seen of a list of tokens behind the place where parsing stops. Lists that agree up to
there fail alike, although their lengths give them different fuel and they may end elsewhere; and
behind the first end anything may stand. -/

namespace Scriptlet

namespace Parse

variable {α β : Type} {place : Cursor}

theorem Lasts.not_exhausted {parse : Parse α} (h : parse.Lasts place)
    (hfinish : place.finish.kind = .endOfInput) : ¬IsExhausted (parse place) := by
  cases hparse : parse place with
  | ok value after => exact id
  | error e after => exact h hfinish e after hparse

/-- Where there is a token, parsing passes it or fails, before it looks at what was passed last. -/
def Forgets (parse : Parse α) (place : Cursor) : Prop :=
  place.rest ≠ [] → ∀ passed, parse (place.anew passed) = parse place ∨
    ∃ e, parse place = .error e place ∧ parse (place.anew passed) = .error e (place.anew passed)

section Rules

theorem forgets_failAt (fault : ParseFault) (span : Span) :
    (failAt fault span : Parse α).Forgets place := fun _ _ => .inr ⟨_, rfl, rfl⟩

theorem forgets_advance : advance.Forgets place := by
  obtain ⟨rest, finish, passed, unnamed⟩ := place
  intro hrest _
  cases rest with
  | nil => exact absurd rfl hrest
  | cons token rest => exact .inl rfl

theorem forgets_bind {parse : Parse α} {next : α → Parse β} (h : parse.Forgets place) :
    (parse >>= next).Forgets place := by
  intro hrest passed
  simp only [bind, EStateM.bind]
  obtain hsame | ⟨e, hparse, hanew⟩ := h hrest passed
  · exact .inl (by rw [hsame])
  · exact .inr ⟨e, by rw [hparse], by rw [hanew]⟩

theorem forgets_peek {next : Token → Parse β} (h : (next place.peek).Forgets place) :
    (peek >>= next).Forgets place := h

theorem forgets_ite {condition : Prop} [Decidable condition] {first second : Parse α}
    (hfirst : first.Forgets place) (hsecond : second.Forgets place) :
    (if condition then first else second).Forgets place := by
  split
  · exact hfirst
  · exact hsecond

theorem forgets_exhausted : (exhausted : Parse α).Forgets place :=
  forgets_peek (forgets_failAt _ _)

theorem forgets_expect (kind : Kind) (what : Expected) : (expect kind what).Forgets place :=
  forgets_peek (forgets_ite forgets_advance (forgets_failAt _ _))

end Rules

section Phrases

theorem primary_forgets (fuel : Nat) : (primary fuel).Forgets place := by
  cases fuel with
  | zero => exact forgets_exhausted
  | succ fuel =>
      refine forgets_peek ?_
      split
      all_goals first | exact forgets_bind forgets_advance | exact forgets_failAt _ _

theorem unary_forgets (fuel : Nat) : (unary fuel).Forgets place := by
  cases fuel with
  | zero => exact forgets_exhausted
  | succ fuel =>
      refine forgets_peek ?_
      split
      · exact forgets_bind forgets_advance
      · exact forgets_bind (primary_forgets fuel)

theorem binary_forgets {operand : Parse Expr} (h : operand.Forgets place) (fuel : Nat) :
    (binary operand fuel).Forgets place := by
  unfold binary
  induction BinaryOp.levels with
  | nil => exact h
  | cons ops levels ih => exact forgets_bind ih

theorem expression_forgets (fuel : Nat) : (expression fuel).Forgets place := by
  cases fuel with
  | zero => exact forgets_exhausted
  | succ fuel => exact forgets_bind (binary_forgets (unary_forgets fuel) fuel)

theorem block_forgets (fuel : Nat) : (block fuel).Forgets place := by
  cases fuel with
  | zero => exact forgets_exhausted
  | succ fuel => exact forgets_peek (forgets_bind (forgets_expect _ _))

theorem conditional_forgets (fuel : Nat) : (conditional fuel).Forgets place := by
  cases fuel with
  | zero => exact forgets_exhausted
  | succ fuel => exact forgets_bind forgets_advance

theorem statement_forgets (fuel : Nat) : (statement fuel).Forgets place := by
  cases fuel with
  | zero => exact forgets_exhausted
  | succ fuel =>
      refine forgets_peek ?_
      split
      · exact forgets_bind forgets_advance
      · exact forgets_bind (block_forgets fuel)
      · exact conditional_forgets fuel
      · exact forgets_bind forgets_advance
      · exact forgets_bind forgets_advance
      · exact forgets_bind forgets_advance
      · exact forgets_bind (expression_forgets fuel)

theorem many_forgets {ends : Kind → Bool} {item : Parse α} (h : item.Forgets place)
    (hopen : ends place.peek.kind = false) (fuel : Nat) : (many ends item fuel).Forgets place := by
  cases fuel with
  | zero => exact forgets_exhausted
  | succ fuel =>
      refine forgets_peek ?_
      rw [hopen]
      exact forgets_bind h

end Phrases

end Parse

theorem Cursor.ofTokens_ended {finish : Token} (hfinish : finish.kind = .endOfInput)
    (front later : List Token) (unnamed : Nat) :
    let first := (front.find? (·.kind == .endOfInput)).getD finish
    ofTokens (front ++ finish :: later) unnamed =
      ⟨Token.inside front, first, first.span, unnamed⟩ := by
  have hfind : (front ++ finish :: later).find? (·.kind == .endOfInput) =
      some ((front.find? (·.kind == .endOfInput)).getD finish) := by
    rw [List.find?_append, List.find?_cons_of_pos (by simp [hfinish])]
    cases front.find? (·.kind == .endOfInput) <;> rfl
  have hinside : (front ++ finish :: later).takeWhile (·.kind != .endOfInput) =
      Token.inside front := by
    rw [Token.inside, List.takeWhile_append, List.takeWhile_cons_of_neg (by simp [hfinish]),
      List.append_nil]
    split
    · rename_i hall
      exact (List.takeWhile_prefix _).eq_of_length hall |>.symm
    · rfl
  simp only [ofTokens, hfind, hinside, Option.getD_some]

/-- Only the front up to the first end counts. -/
theorem Cursor.ofTokens_append {finish : Token} (hfinish : finish.kind = .endOfInput)
    (front later : List Token) (unnamed : Nat) :
    ofTokens (front ++ finish :: later) unnamed = ofTokens (front ++ [finish]) unnamed := by
  rw [ofTokens_ended hfinish, ofTokens_ended hfinish]

section Agreement

variable {α : Type} {front more list other : List α} {next : α} {k : Nat}

theorem exists_later_of_take (h : (front ++ next :: more).take (k + 1) = other.take (k + 1))
    (hk : front.length ≤ k) : ∃ later, other = front ++ next :: later := by
  have hfront : front ++ [next] <+: (front ++ next :: more).take (k + 1) := by
    refine List.prefix_take_iff.mpr ⟨⟨more, by simp⟩, ?_⟩
    rw [List.length_append]
    exact Nat.succ_le_succ hk
  rw [h] at hfront
  obtain ⟨later, hlater⟩ := (List.prefix_take_iff.mp hfront).1
  exact ⟨later, by simpa using hlater.symm⟩

theorem eq_of_take_of_length (h : list.take (k + 1) = other.take (k + 1)) (hk : list.length ≤ k) :
    list = other := by
  have hlengths := congrArg List.length h
  rw [List.length_take, List.length_take] at hlengths
  rwa [List.take_of_length_le (by omega), List.take_of_length_le (by omega)] at h

end Agreement

namespace Program

open Parse

def parse (fuel : Nat) : Parse (List Stmt) := many (· == .endOfInput) (statement fuel) fuel

def told : EStateM.Result ParseError Cursor (List Stmt) → Parsed
  | .ok statements after => ⟨.ok ⟨statements⟩, after.unnamed⟩
  | .error e after => ⟨.error e, after.unnamed⟩

/-- The index of the token at which parsing ends. Where no token is left, the end stands there. -/
def stopIndex (tokens : List Token) (unnamed : Nat) : Nat :=
  let start := Cursor.ofTokens tokens unnamed
  start.left - (left (parse (parseFuel tokens) start)).left

section Fuel

variable {tokens : List Token} {unnamed fuel : Nat}

theorem parse_not_exhausted :
    ¬IsExhausted (parse (parseFuel tokens) (.ofTokens tokens unnamed)) := by
  have hleft : (Cursor.ofTokens tokens unnamed).left ≤ tokens.length :=
    (List.takeWhile_sublist _).length_le
  refine (statements_last ?_).not_exhausted (Cursor.finish_ofTokens tokens unnamed)
  rw [parseFuel]
  omega

theorem parse_repeats (numbers : Nat → Nat) {fuel fuel' : Nat} (hle : fuel ≤ fuel') :
    Repeats numbers (List.map (Stmt.relabel (.renumber numbers))) (parse fuel) (parse fuel') :=
  repeats_many _ (repeatsAt numbers hle).statement hle

theorem parse_nearsighted {fuel fuel' : Nat} (hle : fuel ≤ fuel') {place : Cursor}
    (hlasts : ¬IsExhausted (parse fuel place)) : ∃ passed,
    place.rest = passed ++ (left (parse fuel place)).rest ∧
    (left (parse fuel place)).finish = place.finish ∧
    ∀ rest finish, (left (parse fuel place)).Shows rest finish →
      parse fuel' (place.elsewhere (passed ++ rest) finish 0) =
        elsewhere id rest finish 0 (parse fuel place) := by
  have hrepeats := parse_repeats id hle
  rw [Relabel.renumber_id, funext Stmt.map_relabel_unchanged] at hrepeats
  obtain ⟨passed, hrest, hfinish, -, hsame⟩ := hrepeats place hlasts
  exact ⟨passed, hrest, hfinish, fun rest finish hshows =>
    hsame rest finish 0 hshows fun _ _ _ => rfl⟩

theorem parse_same_of_le {fuel fuel' : Nat} (hle : fuel ≤ fuel') {place : Cursor}
    (hlasts : ¬IsExhausted (parse fuel place)) : parse fuel' place = parse fuel place := by
  obtain ⟨passed, hrest, hfinish, hsame⟩ := parse_nearsighted hle hlasts
  have hplace : place.elsewhere place.rest (left (parse fuel place)).finish 0 = place := by
    rw [hfinish]
    rfl
  have hsame := hsame _ _ ⟨rfl, fun _ => rfl⟩
  rwa [← hrest, hplace, elsewhere_left] at hsame

theorem ofTokens_eq_told : ofTokens tokens unnamed =
    told (parse (parseFuel tokens) (.ofTokens tokens unnamed)) := rfl

theorem ofTokens_eq_told_of_le (hle : parseFuel tokens ≤ fuel) :
    ofTokens tokens unnamed = told (parse fuel (.ofTokens tokens unnamed)) := by
  rw [parse_same_of_le hle parse_not_exhausted]
  exact ofTokens_eq_told

theorem told_anew (hinside : Token.inside tokens ≠ []) (passed : Span) :
    told (parse fuel ((Cursor.ofTokens tokens unnamed).anew passed)) =
      told (parse fuel (.ofTokens tokens unnamed)) := by
  have hopen : ((Cursor.ofTokens tokens unnamed).peek.kind == .endOfInput) = false := by
    obtain ⟨token, more, hrest⟩ := List.exists_cons_of_ne_nil hinside
    have hpeek : (Cursor.ofTokens tokens unnamed).peek = token :=
      congrArg (·.head?.getD (Cursor.ofTokens tokens unnamed).finish) hrest
    have hmem : token ∈ Token.inside tokens := hrest ▸ List.mem_cons_self
    rw [hpeek]
    exact beq_false_of_ne (Cursor.kind_ne_of_mem hmem)
  have hforgets : (parse fuel).Forgets (.ofTokens tokens unnamed) :=
    many_forgets (statement_forgets fuel) hopen fuel
  obtain hsame | ⟨e, hparse, hanew⟩ := hforgets hinside passed
  · rw [hsame]
  · rw [hparse, hanew]
    rfl

end Fuel

section Front

variable {passed later : List Token} {next : Token} {unnamed : Nat}

theorem inside_append (hpassed : ∀ token ∈ passed, token.kind ≠ .endOfInput)
    (hnext : next.kind ≠ .endOfInput) (later : List Token) :
    Token.inside (passed ++ next :: later) = passed ++ next :: Token.inside later := by
  rw [Token.inside, List.takeWhile_append_of_pos (by simpa using hpassed),
    List.takeWhile_cons_of_pos (by simpa using hnext)]
  rfl

theorem told_elsewhere (rest : List Token) (finish : Token)
    (result : EStateM.Result ParseError Cursor (List Stmt)) :
    told (elsewhere id rest finish 0 result) = told result := by cases result <;> rfl

theorem told_later {fuel : Nat} {result : EStateM.Result ParseError Cursor (List Stmt)}
    (hnext : next.kind ≠ .endOfInput)
    (hrest : Token.inside (passed ++ next :: later) = passed ++ (left result).rest)
    (hsame : ∀ rest finish, (left result).Shows rest finish →
      parse fuel (.elsewhere (.ofTokens (passed ++ next :: later) unnamed) (passed ++ rest)
        finish 0) = elsewhere id rest finish 0 result) (later' : List Token) :
    told (parse fuel (.ofTokens (passed ++ next :: later') unnamed)) = told result := by
  let start := Cursor.ofTokens (passed ++ next :: later) unnamed
  let other := Cursor.ofTokens (passed ++ next :: later') unnamed
  have hpassed : ∀ token ∈ passed, token.kind ≠ .endOfInput := fun token hmem =>
    Cursor.kind_ne_of_mem (hrest ▸ List.mem_append_left _ hmem)
  have hleft : (left result).rest = next :: Token.inside later :=
    List.append_cancel_left (hrest.symm.trans (inside_append hpassed hnext later))
  have hshows : (left result).Shows (next :: Token.inside later') other.finish := by
    refine ⟨by rw [hleft]; rfl, fun hnil => ?_⟩
    rw [hleft] at hnil
    cases hnil
  have hother := inside_append hpassed hnext later'
  have hmoved : other.anew start.passed =
      start.elsewhere (passed ++ next :: Token.inside later') other.finish 0 := by
    rw [← hother]
    rfl
  calc told (parse fuel other)
    _ = told (parse fuel (other.anew start.passed)) := (told_anew (by simp [hother]) _).symm
    _ = told (elsewhere id _ _ 0 result) := by rw [hmoved, hsame _ _ hshows]
    _ = told result := told_elsewhere _ _ result

theorem ofTokens_append (hend : next.kind = .endOfInput) (front later later' : List Token) :
    ofTokens (front ++ next :: later) unnamed = ofTokens (front ++ next :: later') unnamed := by
  let fuel := max (parseFuel (front ++ next :: later)) (parseFuel (front ++ next :: later'))
  rw [ofTokens_eq_told_of_le (Nat.le_max_left _ _ : _ ≤ fuel),
    ofTokens_eq_told_of_le (Nat.le_max_right _ _ : _ ≤ fuel),
    Cursor.ofTokens_append hend front later, Cursor.ofTokens_append hend front later']

end Front

/-- A function without a name, and a parenthesis that nothing begins with. -/
def unopened : List Token :=
  [⟨.fnWord, "fn", none, ⟨0, 2, 1⟩⟩, ⟨.leftParen, "(", none, ⟨2, 1, 1⟩⟩,
    ⟨.rightParen, ")", none, ⟨3, 1, 1⟩⟩, ⟨.leftBrace, "\x7b", none, ⟨4, 1, 1⟩⟩,
    ⟨.rightBrace, "\x7d", none, ⟨5, 1, 1⟩⟩, ⟨.rightParen, ")", none, ⟨7, 1, 1⟩⟩]

end Program

end Scriptlet
