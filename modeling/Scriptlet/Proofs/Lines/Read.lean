import Scriptlet.Proofs.Grammar.Extent
import Scriptlet.Proofs.Parsing.Alone
import Scriptlet.Proofs.Scanning.Cut
import Scriptlet.Session

/-! Reading a program line by line. What a statement takes of the source is a source by itself,
and it is read as that statement alone, only that places are counted from its beginning. -/

namespace Scriptlet

/-- The statement is all that is read from a line, once it is moved to where the line stands. -/
def Stmt.ReadFrom (stmt : Stmt) (line : String) (unnamed after : Nat) : Prop :=
  ∃ read, (Program.ofSource line unnamed).result = .ok ⟨[read]⟩ ∧
    (Program.ofSource line unnamed).unnamed = after ∧
    stmt = read.relabel (.shift stmt.span.offset (stmt.span.line - 1))

/-- Each statement is read from its line, and functions without a name are counted through. -/
inductive ReadInLines : List Stmt → List String → Nat → Nat → Prop
  | nil {unnamed : Nat} : ReadInLines [] [] unnamed unnamed
  | cons {stmt : Stmt} {stmts : List Stmt} {line : String} {lines : List String}
      {unnamed middle after : Nat} (hread : stmt.ReadFrom line unnamed middle)
      (hrest : ReadInLines stmts lines middle after) :
      ReadInLines (stmt :: stmts) (line :: lines) unnamed after

theorem ReadInLines.length_eq {stmts : List Stmt} {lines : List String} {unnamed after : Nat}
    (h : ReadInLines stmts lines unnamed after) : stmts.length = lines.length := by
  induction h with
  | nil => rfl
  | cons _ _ ih => rw [List.length_cons, List.length_cons, ih]

/-- What the statements of a program take of its source, if that are whole characters. -/
def Program.lines? (program : Program) (source : String) : Option (List String) :=
  program.statements.mapM fun stmt => stmt.span.slice? source

section Read

open Token

variable {source : String} {stmt : Stmt} {before after : Cursor} {earlier : List Token}
  {finish : Token}

theorem Token.stopFrom_eq_lastSpan {tokens : List Token} (hne : tokens ≠ []) (start : Nat)
    (before : Span) : stopFrom start tokens = (lastSpan tokens before).stop := by
  obtain ⟨others, last, rfl⟩ := (List.eq_nil_or_concat tokens).resolve_left hne
  rw [List.concat_eq_append, stopFrom_append]
  simp [lastSpan]

theorem Stmt.Spelled.readFrom (h : stmt.Spelled before after)
    (hlayout : Layout .start source.toList (earlier ++ (before.rest ++ [finish]))) :
    ∃ line, stmt.span.slice? source = some line ∧
      stmt.ReadFrom line before.unnamed after.unnamed := by
  have hordered : before.Ordered :=
    (List.pairwise_append.mp (List.pairwise_append.mp hlayout.pairwise).2.1).1
  have hextent := h.extent hordered
  have htakes := h.written.2
  obtain ⟨used, huses, hsymbols⟩ := htakes
  obtain ⟨symbol, symbols, hstart, _⟩ := stmt.symbols_start
  cases used with
  | nil => simp [hstart] at hsymbols
  | cons first others =>
      have hpeek : before.peek = first := by simp [Cursor.peek, huses.rest]
      rw [hpeek] at hextent
      rw [huses.rest, List.append_assoc] at hlayout
      obtain ⟨front, text, rest, hsource, hfront, htext, moved, ends, hmoved, hends, htokens⟩ :=
        hlayout.excerpt (by simp)
      have hstop : first.span.stop ≤ after.passed.stop := huses.stop_le hordered (by simp)
      rw [stopFrom_eq_lastSpan (by simp) 0 before.passed, ← huses.passed] at htext
      have hlen : byteLength text = stmt.span.len := by
        rw [hextent]
        show byteLength text = max after.passed.stop first.span.stop - first.span.offset
        omega
      refine ⟨String.ofList text, Span.slice?_eq hsource (by rw [hextent]; exact hfront) hlen, ?_⟩
      obtain ⟨ends', hsplit, _, hinside⟩ := hmoved.inside
      rw [List.dropLast_concat] at hinside
      rw [htokens] at huses
      obtain ⟨read, hparsed, hread⟩ := Program.ofTokens_alone h huses hinside hends
      have hscan : scan (String.ofList text) = .ok (moved ++ [ends]) := by
        rw [scan, String.toList_ofList]
        exact scanFrom_of_layout hmoved
      refine ⟨read, ?_, ?_, by rw [hextent]; exact hread⟩
      · simp [Program.ofSource, hscan, hparsed]
      · simp [Program.ofSource, hscan, hparsed]

theorem Stmt.sequence_readInLines {stmts : List Stmt}
    (h : Sequence Stmt.Spelled stmts before after) : ∀ earlier,
    Layout .start source.toList (earlier ++ (before.rest ++ [finish])) →
      ∃ lines, (stmts.mapM fun stmt => stmt.span.slice? source) = some lines ∧
        ReadInLines stmts lines before.unnamed after.unnamed := by
  induction h with
  | nil => exact fun _ _ => ⟨[], rfl, .nil⟩
  | @cons stmt rest before middle after hstmt _ ih =>
      intro earlier hlayout
      obtain ⟨line, hslice, hread⟩ := hstmt.readFrom hlayout
      obtain ⟨used, huses, _⟩ := hstmt.written.2
      rw [huses.rest, List.append_assoc, ← List.append_assoc earlier] at hlayout
      obtain ⟨lines, hslices, hrest⟩ := ih _ hlayout
      exact ⟨line :: lines, by simp [List.mapM_cons, hslice, hslices], .cons hread hrest⟩

end Read

namespace Program

/-- A program can be cut into lines, and is read from them statement by statement. -/
theorem readInLines {source : String} {unnamed : Nat} {program : Program}
    (h : (ofSource source unnamed).result = .ok program) :
    ∃ lines, program.lines? source = some lines ∧
      ReadInLines program.statements lines unnamed (ofSource source unnamed).unnamed := by
  unfold ofSource at h ⊢
  cases hscan : Token.scan source with
  | error e => simp [hscan] at h
  | ok tokens =>
      have hlayout := Token.layout_of_scanFrom hscan
      obtain ⟨finish, htokens, hfinish, hinside⟩ := hlayout.inside
      have hparsed : (ofTokens tokens unnamed).result = .ok program := by
        cases hresult : (ofTokens tokens unnamed).result with
        | error e => simp [hscan, hresult] at h
        | ok parsed => simpa [hscan, hresult] using h
      obtain ⟨last, hspelled, _, hafter⟩ := spelled_of_result hparsed
      have hstart := Cursor.ofTokens_closed hinside hfinish unnamed
      rw [← htokens] at hstart
      rw [hstart] at hspelled
      obtain ⟨lines, hslices, hread⟩ := Stmt.sequence_readInLines hspelled [] (htokens ▸ hlayout)
      exact ⟨lines, hslices, by simpa [hparsed, hafter] using hread⟩

end Program

end Scriptlet
