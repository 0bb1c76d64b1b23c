import Scriptlet.Proofs.Lookahead
import Scriptlet.Proofs.Parsing.Bounds
import Scriptlet.Proofs.Scanning.Slices

/-! Scanning and parsing end, on every text and on every list of tokens, and do not reach outside of
what they read. Scanning cuts its text between characters only. Parsing by index is always at a
token, whatever the list is: it may be empty, its end may be missing or in the middle, and the
literals of its tokens may not be what their kinds say. -/

namespace Scriptlet

theorem ClosedTokens.length_pos (tokens : ClosedTokens) : 0 < tokens.all.length := by
  refine List.length_pos_iff.mpr fun hnil => ?_
  have hclosed := tokens.closed
  rw [hnil] at hclosed
  cases hclosed

def ClosedTokens.start (tokens : ClosedTokens) (unnamed : Nat) : tokens.Place :=
  ⟨0, unnamed, tokens.length_pos⟩

/-- The end that is put behind a list is the one at which it is found to end anyway. -/
theorem Cursor.ofTokens_closedTokens (tokens : List Token) (unnamed : Nat) :
    ofTokens (ClosedTokens.ofTokens tokens).all unnamed = ofTokens tokens unnamed := by
  have hend : (finishOf tokens).kind = .endOfInput := by
    unfold finishOf
    cases tokens.getLast? <;> rfl
  unfold ClosedTokens.ofTokens
  split
  · rfl
  · exact ofTokens_ended hend tokens [] unnamed

namespace Program

variable {tokens : List Token} {unnamed fuel : Nat}

theorem ofTokens_not_exhausted {e : ParseError} (h : (ofTokens tokens unnamed).result = .error e) :
    e.fault ≠ .exhausted := by
  have hlasts := @parse_not_exhausted tokens unnamed
  rw [ofTokens_eq_told] at h
  generalize parse (parseFuel tokens) (.ofTokens tokens unnamed) = result at h hlasts
  cases result with
  | ok statements after => cases h
  | error e after =>
      cases h
      exact hlasts

theorem told_start (hfuel : parseFuel tokens ≤ fuel) (passed : Span) :
    told (parse fuel ((Cursor.ofTokens tokens unnamed).anew passed)) =
      ofTokens tokens unnamed := by
  rw [ofTokens_eq_told_of_le hfuel]
  by_cases hinside : Token.inside tokens = []
  · obtain ⟨less, rfl⟩ : ∃ less, fuel = less + 1 := by
      rw [parseFuel] at hfuel
      exact ⟨fuel - 1, by omega⟩
    have hpeek : ∀ passed,
        ((Cursor.ofTokens tokens unnamed).anew passed).peek.kind = .endOfInput := fun passed => by
      have hrest : ((Cursor.ofTokens tokens unnamed).anew passed).rest = [] := hinside
      rw [Cursor.peek, hrest]
      exact Cursor.finish_ofTokens tokens unnamed
    have hparse : ∀ passed, parse (less + 1) ((Cursor.ofTokens tokens unnamed).anew passed) =
        .ok [] ((Cursor.ofTokens tokens unnamed).anew passed) := fun passed => by
      simp [parse, Parse.many, bind, EStateM.bind, pure, EStateM.pure, Parse.peek, hpeek]
    rw [hparse passed]
    exact (congrArg told (hparse (Cursor.ofTokens tokens unnamed).passed)).symm
  · exact told_anew hinside passed

end Program

namespace Indexed

variable {α : Type} {tokens : ClosedTokens} {place : tokens.Place} {fuel : Nat}

def statements (fuel : Nat) : Indexed tokens (List Stmt) :=
  many (· == .endOfInput) (statement fuel) fuel

/-- The program that parsing by index finds, or the error. There is neither if it goes where no
token is, or if its fuel does not last. -/
def parsed? : EStateM.Result Trouble tokens.Place (List Stmt) → Option Parsed
  | .ok statements after => some ⟨.ok ⟨statements⟩, after.unnamed⟩
  | .error (.fault e) after =>
      if e.fault = .exhausted then none else some ⟨.error e, after.unnamed⟩
  | .error .outOfBounds _ => none

theorem statements_agree (fuel : Nat) (place : tokens.Place) :
    Shows place (statements fuel place) (Program.parse fuel place.view) :=
  agrees_many _ (agreesAt tokens fuel).statement fuel

theorem Shows.parsed?_eq {result : EStateM.Result Trouble tokens.Place (List Stmt)}
    {result' : EStateM.Result ParseError Cursor (List Stmt)} (h : Shows place result result')
    (hlasts : ∀ e, (Program.told result').result = .error e → e.fault ≠ .exhausted) :
    parsed? result = some (Program.told result') := by
  cases h with
  | ok => rfl
  | error => exact if_neg (hlasts _ rfl)

/-- Wherever it succeeds, it has passed a token. -/
def Moves (parse : Indexed tokens α) : Prop :=
  ∀ (place : tokens.Place) value after, parse place = .ok value after →
    place.current < after.current

theorem moves_of_advances {parse : Indexed tokens α} {parse' : Parse α}
    (h : ∀ place, Agrees parse parse' place) (hadvances : parse'.Advances) : parse.Moves := by
  intro place value after hrun
  have hshows := h place
  unfold Agrees at hshows
  rw [hrun] at hshows
  generalize hresult : parse' place.view = result at hshows
  cases hshows with
  | ok hle =>
      have hless := (hadvances place.view place.finish_view value after.view hresult).2
      refine Nat.lt_of_le_of_ne hle fun hsame => ?_
      have hrest : after.view.rest = place.view.rest := by
        simp only [ClosedTokens.Place.view, Cursor.ofTokens, hsame]
      simp only [Cursor.left, hrest] at hless
      omega

end Indexed

end Scriptlet
