import Scriptlet.Proofs.Grammar.Spelled
import Scriptlet.Proofs.Tree

/-! Functions without a name among tokens and in trees. Which words begin such a function can be
told from the tokens alone: where a type is awaited the word belongs to a type, and a function that
has a name has it right behind the word. -/

namespace Scriptlet

/-- What the tokens so far tell about the next one: whether a type is awaited, whether the word just
passed belongs to a type, and whether the parentheses that are open, innermost first, hold types. -/
structure Spot where
  awaited : Bool
  opened : Bool
  parens : List Bool

namespace Spot

def settled (parens : List Bool) : Spot := ⟨false, false, parens⟩

def awaiting (parens : List Bool) : Spot := ⟨true, false, parens⟩

def item (types : Bool) (parens : List Bool) : Spot := ⟨types, false, types :: parens⟩

def after (spot : Spot) : Kind → Spot
  | .colon | .arrow => awaiting spot.parens
  | .fnWord => ⟨false, spot.awaited, spot.parens⟩
  | .leftParen => item spot.opened spot.parens
  | .comma => ⟨spot.parens.head? == some true, false, spot.parens⟩
  | .rightParen => settled spot.parens.tail
  | _ => settled spot.parens

def afterAll (spot : Spot) (tokens : List Token) : Spot :=
  tokens.foldl (fun spot token => spot.after token.kind) spot

def plain (spot : Spot) : Kind → Bool
  | .endOfInput => false
  | .fnWord => spot.awaited
  | _ => true

theorem ne_endOfInput_of_plain {spot : Spot} {kind : Kind} (h : spot.plain kind) :
    kind ≠ .endOfInput := by
  rintro rfl
  cases h

def begins (spot : Spot) (token : Token) (rest : List Token) : Bool :=
  token.kind == .fnWord && !spot.awaited && (rest.head?.map Token.kind != some .identifier)

def begun : Spot → List Token → Nat → List Token
  | _, _, 0 | _, [], _ => []
  | spot, token :: rest, count + 1 =>
      (if spot.begins token rest then [token] else []) ++ begun (spot.after token.kind) rest count

theorem begins_eq_false {spot : Spot} {token : Token} (h : spot.plain token.kind)
    (rest : List Token) : spot.begins token rest = false := by
  by_cases hword : token.kind = .fnWord
  · rw [hword] at h
    rw [begins, show spot.awaited = true from h, Bool.not_true, Bool.and_false, Bool.false_and]
  · rw [begins, beq_eq_false_iff_ne.mpr hword, Bool.false_and, Bool.false_and]

variable {spot : Spot} {front rest : List Token}

theorem begun_append (count : Nat) : begun spot (front ++ rest) (front.length + count) =
    begun spot (front ++ rest) front.length ++ begun (spot.afterAll front) rest count := by
  induction front generalizing spot with
  | nil => simp [begun, afterAll]
  | cons token front ih =>
      have hlength : (token :: front).length + count = front.length + count + 1 := by
        rw [List.length_cons, Nat.add_right_comm]
      rw [hlength, List.cons_append, List.length_cons, begun, begun, ih, List.append_assoc]
      rfl

end Spot

/-- A function without a name of its own: the name that it got, and where its word stands. -/
structure Unnamed where
  name : String
  offset : Nat
  line : Nat
deriving DecidableEq

def Unnamed.of (name : String) (span : Span) : Unnamed := ⟨name, span.offset, span.line⟩

/-- Functions that begin with the given words and are numbered in their order. -/
def numbered : Nat → List Token → List Unnamed
  | _, [] => []
  | number, word :: words =>
      .of (Parse.unnamedFunction number) word.span :: numbered (number + 1) words

theorem numbered_append (number : Nat) (words others : List Token) :
    numbered number (words ++ others) =
      numbered number words ++ numbered (number + words.length) others := by
  induction words generalizing number with
  | nil => rfl
  | cons word words ih =>
      rw [List.cons_append, numbered, ih, numbered, List.length_cons, List.cons_append]
      congr 3
      omega

def Node.unnamed? : Node → Option Unnamed
  | .fn decl => if decl.anonymous then some (.of decl.name decl.mark.span) else none
  | _ => none

/-- The functions without a name of their own, each before those inside it. -/
def unnamedIn (nodes : List Node) : List Unnamed := nodes.filterMap Node.unnamed?

section UnnamedIn

@[simp] theorem unnamedIn_nil : unnamedIn [] = [] := rfl

@[simp] theorem unnamedIn_append (nodes others : List Node) :
    unnamedIn (nodes ++ others) = unnamedIn nodes ++ unnamedIn others := List.filterMap_append

@[simp] theorem unnamedIn_expr (expr : Expr) (nodes : List Node) :
    unnamedIn (.expr expr :: nodes) = unnamedIn nodes := rfl

@[simp] theorem unnamedIn_stmt (stmt : Stmt) (nodes : List Node) :
    unnamedIn (.stmt stmt :: nodes) = unnamedIn nodes := rfl

theorem unnamedIn_fn (decl : FnDecl) : unnamedIn decl.nodes =
    (if decl.anonymous then [.of decl.name decl.mark.span] else []) ++
      unnamedIn (Stmt.allNodes decl.body) := by
  rw [FnDecl.nodes_eq, unnamedIn, List.filterMap_cons, Node.unnamed?]
  cases decl.anonymous <;> rfl

theorem unnamedIn_exprs (exprs : List Expr) : unnamedIn (Expr.allNodes exprs) =
    exprs.flatMap fun expr => unnamedIn expr.nodes := by
  induction exprs with
  | nil => rfl
  | cons expr exprs ih => rw [Expr.allNodes, unnamedIn_append, ih, List.flatMap_cons]

theorem unnamedIn_stmts (stmts : List Stmt) : unnamedIn (Stmt.allNodes stmts) =
    stmts.flatMap fun stmt => unnamedIn stmt.nodes := by
  induction stmts with
  | nil => rfl
  | cons stmt stmts ih => rw [Stmt.allNodes, unnamedIn_append, ih, List.flatMap_cons]

end UnnamedIn

/-- From one cursor to another some tokens are passed and a number is handed out for each of the
words among them that begin functions without a name. -/
structure Walks (spot : Spot) (before : Cursor) (words : List Token) (spot' : Spot)
    (after : Cursor) : Prop where
  passed : ∃ front, before.rest = front ++ after.rest ∧ spot' = spot.afterAll front ∧
    words = spot.begun before.rest front.length
  finish : after.finish = before.finish
  unnamed : after.unnamed = before.unnamed + words.length

section Walks

variable {spot middle spot' : Spot} {before between after place : Cursor}
  {words others : List Token}

theorem Walks.refl (spot : Spot) (place : Cursor) : Walks spot place [] spot place :=
  ⟨⟨[], rfl, rfl, by simp [Spot.begun]⟩, rfl, rfl⟩

theorem Walks.trans (h : Walks spot before words middle between)
    (h' : Walks middle between others spot' after) :
    Walks spot before (words ++ others) spot' after := by
  obtain ⟨⟨front, hrest, rfl, rfl⟩, hfinish, hunnamed⟩ := h
  obtain ⟨⟨front', hrest', rfl, rfl⟩, hfinish', hunnamed'⟩ := h'
  refine ⟨⟨front ++ front', ?_, ?_, ?_⟩, hfinish'.trans hfinish, ?_⟩
  · rw [hrest, hrest', List.append_assoc]
  · rw [Spot.afterAll, Spot.afterAll, Spot.afterAll, List.foldl_append]
  · rw [hrest, List.length_append, Spot.begun_append]
  · rw [hunnamed', hunnamed, List.length_append, Nat.add_assoc]

theorem Walks.of_passes {kind : Kind} {token : Token} (h : Passes kind token before after)
    (hplain : spot.plain kind) : Walks spot before [] (spot.after kind) after := by
  cases h with
  | @intro rest finish passed unnamed hkind =>
      subst hkind
      refine ⟨⟨[token], rfl, rfl, ?_⟩, rfl, rfl⟩
      simp [Spot.begun, Spot.begins_eq_false hplain]

theorem Spot.begins_settled {parens : List Bool} {word : Token} (hword : word.kind = .fnWord)
    (hfinish : place.finish.kind = .endOfInput) :
    (settled parens).begins word place.rest = decide (place.peek.kind ≠ .identifier) := by
  rw [Spot.begins, Cursor.peek]
  cases place.rest with
  | nil => simp [settled, hword, hfinish]
  | cons next rest => by_cases hname : next.kind = .identifier <;> simp [settled, hword, hname]

theorem Walks.of_word {parens : List Bool} {word : Token} (h : Passes .fnWord word before after)
    (hfinish : before.finish.kind = .endOfInput) :
    if after.peek.kind ≠ .identifier then
      Walks (.settled parens) before [word] (.settled parens)
        { after with unnamed := after.unnamed + 1 }
    else Walks (.settled parens) before [] (.settled parens) after := by
  cases h with
  | @intro rest finish passed unnamed hkind =>
      let place : Cursor := ⟨rest, finish, word.span, unnamed⟩
      have hbegins : (Spot.settled parens).begins word rest = _ :=
        @Spot.begins_settled place _ _ hkind hfinish
      have hafter : Spot.settled parens = (Spot.settled parens).afterAll [word] := by
        simp [Spot.afterAll, hkind, Spot.after, Spot.settled]
      have hbegun : (Spot.settled parens).begun (word :: rest) [word].length =
          if place.peek.kind ≠ .identifier then [word] else [] := by
        simp only [List.length_singleton, Spot.begun, List.append_nil, hbegins, decide_eq_true_iff]
      split
      · rename_i hname
        exact ⟨⟨[word], rfl, hafter, by rw [hbegun, if_pos hname]⟩, rfl, rfl⟩
      · rename_i hname
        exact ⟨⟨[word], rfl, hafter, by rw [hbegun, if_neg hname]⟩, rfl, rfl⟩

end Walks

end Scriptlet
