import Mathlib.Data.List.Nodup
import Scriptlet.Proofs.Lookahead
import Scriptlet.Proofs.Parsing.Numbered
import Scriptlet.Proofs.Tree.Names

/-! Numbers in source order. Functions without a name are numbered in the order of their words, so
one that is around others comes before them. Parsing that fails has used up the numbers of the words
that it passed, and programs that are parsed one after the other share no made-up name. -/

namespace Scriptlet

section Tokens

variable {spot : Spot} {tokens : List Token}

/-- An end of input is no name. -/
theorem Spot.begins_inside (token : Token) (rest : List Token) :
    spot.begins token (Token.inside rest) = spot.begins token rest := by
  cases rest with
  | nil => rfl
  | cons next rest =>
      by_cases hend : next.kind = .endOfInput
      · rw [Token.inside, List.takeWhile_cons_of_neg (by simp [hend]), begins, begins,
          List.head?_nil, List.head?_cons, Option.map_some, hend]
        rfl
      · rw [Token.inside, List.takeWhile_cons_of_pos (by simpa using hend), begins, begins,
          List.head?_cons, List.head?_cons]

theorem Spot.begun_inside {count : Nat} (h : count ≤ (Token.inside tokens).length) :
    spot.begun (Token.inside tokens) count = spot.begun tokens count := by
  induction tokens generalizing spot count with
  | nil => rfl
  | cons token rest ih =>
      cases count with
      | zero => simp [begun]
      | succ count =>
          by_cases hend : token.kind = .endOfInput
          · simp [Token.inside, hend] at h
          · have hinside : Token.inside (token :: rest) = token :: Token.inside rest :=
              List.takeWhile_cons_of_pos (by simpa using hend)
            rw [hinside] at h ⊢
            rw [begun, begun, begins_inside, ih (Nat.le_of_succ_le_succ h)]

theorem numbered_names (number : Nat) (words : List Token) :
    (numbered number words).map Unnamed.name =
      (List.range' number words.length).map Parse.unnamedFunction := by
  induction words generalizing number with
  | nil => rfl
  | cons word words ih =>
      rw [numbered, List.map_cons, ih, List.length_cons, List.range'_succ, List.map_cons]
      rfl

end Tokens

namespace Program

open Parse

/-- The words that begin functions without a name, among the tokens that parsing passes. -/
def begun (tokens : List Token) (unnamed : Nat) : List Token :=
  Spot.begun (.settled []) tokens (stopIndex tokens unnamed)

/-- The functions without a name that are begun when lists of tokens are parsed one after the other,
each from the number at which the one before it ended, and whether they are programs or not. -/
def begunAll : List (List Token) → Nat → List Unnamed
  | [], _ => []
  | tokens :: rest, unnamed =>
      numbered unnamed (begun tokens unnamed) ++ begunAll rest (ofTokens tokens unnamed).unnamed

section Numbers

variable {tokens : List Token} {unnamed : Nat}

theorem begun_of_walks {spot : Spot} {words : List Token} {after : Cursor}
    (h : Walks (.settled []) (.ofTokens tokens unnamed) words spot after)
    (hleft : left (parse (parseFuel tokens) (.ofTokens tokens unnamed)) = after) :
    words = begun tokens unnamed := by
  obtain ⟨front, hrest, -, rfl⟩ := h.passed
  have hfront : stopIndex tokens unnamed = front.length := by
    rw [stopIndex, hleft, Cursor.left, Cursor.left, hrest, List.length_append]
    omega
  have hinside : Token.inside tokens = front ++ after.rest := hrest
  have hle : front.length ≤ (Token.inside tokens).length := by
    rw [hinside, List.length_append]
    omega
  rw [begun, hfront, ← Spot.begun_inside hle]
  rfl

theorem parse_tells : Tells [] (fun stmts => stmts.flatMap fun stmt => unnamedIn stmt.nodes)
    (.settled []) (.ofTokens tokens unnamed) (.settled [])
    (parse (parseFuel tokens) (.ofTokens tokens unnamed)) :=
  numbers_many ((numbersAt (parseFuel tokens)).statement []) _ _
    (Cursor.finish_ofTokens tokens unnamed)

theorem unnamed_ofTokens :
    (ofTokens tokens unnamed).unnamed = unnamed + (begun tokens unnamed).length := by
  have htells := @parse_tells tokens unnamed
  rw [ofTokens_eq_told]
  cases hparse : parse (parseFuel tokens) (.ofTokens tokens unnamed) with
  | ok stmts after =>
      rw [hparse] at htells
      obtain ⟨words, hwalk, -⟩ := htells
      rw [← begun_of_walks hwalk (by rw [hparse]; rfl)]
      exact hwalk.unnamed
  | error e after =>
      have hlasts := @parse_not_exhausted tokens unnamed
      rw [hparse] at htells hlasts
      obtain ⟨words, spot, hwalk⟩ := htells.resolve_left hlasts
      rw [← begun_of_walks hwalk (by rw [hparse]; rfl)]
      exact hwalk.unnamed

theorem unnamedIn_ofTokens {program : Program}
    (h : (ofTokens tokens unnamed).result = .ok program) :
    unnamedIn program.nodes = numbered unnamed (begun tokens unnamed) := by
  have htells := @parse_tells tokens unnamed
  rw [ofTokens_eq_told] at h
  cases hparse : parse (parseFuel tokens) (.ofTokens tokens unnamed) with
  | ok stmts after =>
      rw [hparse] at htells h
      obtain ⟨words, hwalk, hlabels⟩ := htells
      obtain rfl := Except.ok.inj h
      rw [← begun_of_walks hwalk (by rw [hparse]; rfl), nodes, unnamedIn_stmts]
      exact hlabels
  | error e after =>
      rw [hparse] at h
      cases h

theorem begunAll_names (sources : List (List Token)) (unnamed : Nat) : ∃ count,
    (begunAll sources unnamed).map Unnamed.name =
      (List.range' unnamed count).map unnamedFunction := by
  induction sources generalizing unnamed with
  | nil => exact ⟨0, rfl⟩
  | cons tokens rest ih =>
      obtain ⟨count, hcount⟩ := ih (ofTokens tokens unnamed).unnamed
      refine ⟨(begun tokens unnamed).length + count, ?_⟩
      rw [begunAll, List.map_append, hcount, numbered_names, unnamed_ofTokens, ← List.map_append,
        ← List.range'_append_1]

end Numbers

/-- Functions without a name are numbered in the order of their words, from the number with which
parsing begins. A program has just these functions; and parsing uses up one number for each, even
if it fails later on. So no two functions ever share a made-up name. -/
theorem unnamed_in_order (tokens : List Token) (unnamed : Nat) :
    (ofTokens tokens unnamed).unnamed = unnamed + (begun tokens unnamed).length ∧
    (∀ program, (ofTokens tokens unnamed).result = .ok program →
      unnamedIn program.nodes = numbered unnamed (begun tokens unnamed)) ∧
    ∀ sources, ((begunAll sources unnamed).map Unnamed.name).Nodup := by
  refine ⟨unnamed_ofTokens, fun program h => unnamedIn_ofTokens h, fun sources => ?_⟩
  obtain ⟨count, hcount⟩ := begunAll_names sources unnamed
  rw [hcount]
  exact List.Nodup.map unnamedFunction_injective List.nodup_range'

/-- A function without a name in another one, which takes a function. -/
def nested : List Token :=
  [⟨.fnWord, "fn", none, ⟨0, 2, 1⟩⟩, ⟨.leftParen, "(", none, ⟨2, 1, 1⟩⟩,
    ⟨.identifier, "f", none, ⟨3, 1, 1⟩⟩, ⟨.colon, ":", none, ⟨4, 1, 1⟩⟩,
    ⟨.fnWord, "fn", none, ⟨6, 2, 1⟩⟩, ⟨.leftParen, "(", none, ⟨8, 1, 1⟩⟩,
    ⟨.identifier, "int", none, ⟨9, 3, 1⟩⟩, ⟨.rightParen, ")", none, ⟨12, 1, 1⟩⟩,
    ⟨.rightParen, ")", none, ⟨13, 1, 1⟩⟩, ⟨.leftBrace, "\x7b", none, ⟨15, 1, 1⟩⟩,
    ⟨.fnWord, "fn", none, ⟨17, 2, 1⟩⟩, ⟨.leftParen, "(", none, ⟨19, 1, 1⟩⟩,
    ⟨.rightParen, ")", none, ⟨20, 1, 1⟩⟩, ⟨.leftBrace, "\x7b", none, ⟨22, 1, 1⟩⟩,
    ⟨.rightBrace, "\x7d", none, ⟨24, 1, 1⟩⟩, ⟨.rightBrace, "\x7d", none, ⟨26, 1, 1⟩⟩]

/-- The word of the type gets no number. -/
theorem nested_in_order :
    (∃ program, (ofTokens nested 3).result = .ok program ∧
      unnamedIn program.nodes = [⟨"<fn#3>", 0, 1⟩, ⟨"<fn#4>", 17, 1⟩]) ∧
    (ofTokens nested 3).unnamed = 5 ∧
    ((begunAll [nested, unopened, nested] 3).map Unnamed.name).Nodup := by
  obtain ⟨hunnamed, hprogram, hall⟩ := unnamed_in_order nested 3
  have hbegun : numbered 3 (begun nested 3) = [⟨"<fn#3>", 0, 1⟩, ⟨"<fn#4>", 17, 1⟩] := by
    decide +kernel
  have hlength : (begun nested 3).length = 2 := by decide +kernel
  rw [hlength] at hunnamed
  refine ⟨?_, hunnamed, hall _⟩
  cases hresult : (ofTokens nested 3).result with
  | ok program => exact ⟨program, rfl, (hprogram program hresult).trans hbegun⟩
  | error e =>
      have hok : (ofTokens nested 3).result.isOk = true := by decide +kernel
      rw [hresult] at hok
      cases hok

end Program

end Scriptlet
