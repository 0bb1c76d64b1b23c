import Scriptlet.Proofs.Doubles.Whole
import Scriptlet.Proofs.Parsing
import Scriptlet.Proofs.Scanning
import Scriptlet.Session

/-! Whole numbers in a script. A number is read as the nearest double before it becomes an integer;
so it keeps its value if it has at most 53 significant bits, and is rounded otherwise. -/

namespace Scriptlet

namespace Double

/-- The double is the one nearest to `n / d` units; of two that are equally near, the even one. -/
def IsNearest (n d : Nat) : Double → Prop
  | .finite negative units _ => negative = false ∧ Nearest n d units
  | _ => False

section Whole

variable {n : Nat}

theorem ofDecimal_whole (h : n ≤ 9223372036854775807) :
    ∃ hunits, ofDecimal n 0 = .finite false (nearestUnits n 1 * unitsPerOne) hunits := by
  have hread : ofDecimal n 0 = nearest false (n * unitsPerOne) 1 := rfl
  rw [hread]
  exact nearest_whole false (by omega)

theorem ofDecimal_isNearest (h : n ≤ 9223372036854775807) :
    (ofDecimal n 0).IsNearest (n * unitsPerOne) 1 := by
  obtain ⟨hunits, hread⟩ := ofDecimal_whole h
  have hnearest := @nearestUnits_nearest (n * unitsPerOne) 1 Nat.one_pos
  rw [mul_unitsPerOne, nearestUnits_shift, ← mul_unitsPerOne, ← mul_unitsPerOne] at hnearest
  rw [hread]
  exact ⟨rfl, hnearest⟩

end Whole

end Double

section Literal

variable {n : Nat}

theorem toInt_ofInt_of_lt {m : Nat} (h : m < 9223372036854775808) :
    (Int64.ofInt m).toInt = m :=
  Int64.toInt_ofInt_of_le (by omega) (by omega)

theorem Literal.number_whole (h : n ≤ 9223372036854775807) :
    Literal.number (.ofDecimal n 0) =
      if Double.nearestUnits n 1 < 9223372036854775808 then
        .int (.ofInt (Double.nearestUnits n 1))
      else .float (.ofDecimal n 0) := by
  obtain ⟨hunits, hread⟩ := Double.ofDecimal_whole h
  have hvalue : (Double.ofDecimal n 0).units? =
      some ((Double.nearestUnits n 1 : Int) * Double.unitsPerOne) := by
    rw [hread]
    simp [Double.units?]
  split
  · rename_i hlt
    rw [Literal.number_eq_int_iff, toInt_ofInt_of_lt hlt, hvalue]
  · rename_i hlarge
    refine (Literal.number_cases _).resolve_left ?_
    rintro ⟨m, hm⟩
    rw [Literal.number_eq_int_iff, hvalue] at hm
    have hsame := Int.eq_of_mul_eq_mul_right (Int.ne_of_gt Double.unitsPerOne_pos_int)
      (Option.some.inj hm)
    have hmax := m.toInt_lt
    omega

end Literal

section Source

variable {digits : String}

theorem Token.scan_digits (h : Lexeme.IsDigits digits.toList) : Token.scan digits =
    .ok [⟨.number, digits, some (.number (.ofDecimal (Lexeme.digitsValue digits.toList) 0)),
      ⟨0, digits.utf8ByteSize, 1⟩⟩, endOfInput ⟨digits.utf8ByteSize, 0, 1⟩] := by
  have hlongest := (Lexeme.split?_eq_some_iff.mp (Lexeme.split?_text (.whole h))).1
  rw [← List.append_nil (Lexeme.text _)] at hlongest
  have hlayout : Layout .start ([] ++ (Lexeme.text _ ++ [])) _ :=
    .token .nil hlongest (.finish .nil)
  have hline : digits.toList.count '\n' = 0 := List.count_eq_zero.mpr fun hmem =>
    absurd (h.2 _ hmem) (by decide)
  have hscan := scanFrom_of_layout hlayout
  simp only [Lexeme.wholeNumber, Lexeme.toToken, List.nil_append, List.append_nil,
    Position.after_nil, String.ofList_toList, spanOf_after_start, byteLength_toList, hline] at hscan
  exact hscan

theorem Program.ofSource_digits (h : Lexeme.IsDigits digits.toList) (unnamed : Nat) :
    (ofSource digits unnamed).result = .ok ⟨[.expression (.literal
      (.number (.ofDecimal (Lexeme.digitsValue digits.toList) 0))
      ⟨⟨0, digits.utf8ByteSize, 1⟩, none⟩)]⟩ := by
  generalize hvalue : Double.ofDecimal (Lexeme.digitsValue digits.toList) 0 = value
  have hscan := Token.scan_digits h
  rw [hvalue] at hscan
  let token : Token := ⟨.number, digits, some (.number value), ⟨0, digits.utf8ByteSize, 1⟩⟩
  let finish := Token.endOfInput ⟨digits.utf8ByteSize, 0, 1⟩
  have hspelled : Program.Spelled ⟨[.expression (.literal (.number value) ⟨token.span, none⟩)]⟩
      [token, finish] unnamed unnamed := by
    have hliteral : Literal.Spelled (.number value) token ⟨[token], finish, finish.span, unnamed⟩
        ⟨[], finish, token.span, unnamed⟩ := .number (.intro rfl) rfl
    have hstart : Kind.number ≠ .fnWord := by decide
    have hstop : Kind.endOfInput.Stops 0 := by decide
    exact ⟨_, .cons (.expression (.literal hliteral) hstart hstop) .nil, rfl, rfl⟩
  have hparsed := ofTokens_of_spelled hspelled
  simp only [ofSource, hscan]
  rw [hparsed]

theorem Program.run_literal (literal : Literal) (mark : Mark) (fuel : Nat) (machine : Machine) :
    Program.run ⟨[.expression (.literal literal mark)]⟩ (fuel + 3) machine =
      ⟨machine, .ok (.ofLiteral literal)⟩ := by
  simp only [run, Run.executeAll, Run.execute, Run.evaluate]
  rfl

theorem Program.check_literal (literal : Literal) (span : Span) (checker : Checker) :
    Program.check ⟨[.expression (.literal literal ⟨span, none⟩)]⟩ checker =
      ⟨⟨[.expression (.literal literal ⟨span, some literal.ty⟩)]⟩, checker, .ok ()⟩ := by
  simp only [check, checkStmts, checkStmt, checkExpr]
  rfl

theorem Session.eval_literal {session : Session} {source : String} {literal : Literal}
    {span : Span} (h : (Program.ofSource source session.unnamed).result =
      .ok ⟨[.expression (.literal literal ⟨span, none⟩)]⟩) (fuel : Nat) :
    (session.eval (fuel + 3) source).2 = .ok (.ofLiteral literal) := by
  simp only [eval, compile, h, check, observe]
  cases session.checker with
  | none => simp only [run, Program.run_literal]
  | some checker => simp only [Program.check_literal, run, Program.run_literal]

end Source

namespace Program

/-- A whole number of 63 bits is read as the double that is nearest to it; of two that are equally
near, as the even one. That double is the literal, as an integer unless it is too large for one; so
the literal has the value that was written if that has at most 53 significant bits, and only
then. -/
theorem number_nearest {digits : String} (hdigits : Lexeme.IsDigits digits.toList)
    (h : Lexeme.digitsValue digits.toList ≤ 9223372036854775807) :
    let n := Lexeme.digitsValue digits.toList
    let x := Double.ofDecimal n 0
    let literal := Literal.number x
    x.IsNearest (n * Double.unitsPerOne) 1 ∧
      (∀ unnamed, (ofSource digits unnamed).result =
        .ok ⟨[.expression (.literal literal ⟨⟨0, digits.utf8ByteSize, 1⟩, none⟩)]⟩) ∧
      (∀ (session : Session) (fuel : Nat),
        (session.eval (fuel + 3) digits).2 = .ok (.ofLiteral literal)) ∧
      (n < 9223372036854775296 → ∃ i, literal = .int i ∧ x.toInt? = some i.toInt) ∧
      (9223372036854775296 ≤ n → literal = .float x ∧ x.toInt? = some 9223372036854775808) ∧
      ((∃ i, literal = .int i ∧ i.toInt = n) ↔ Double.Aligned n) ∧
      (n ≤ 9007199254740992 → Double.Aligned n) := by
  intro n x literal
  replace h : n ≤ 9223372036854775807 := h
  obtain ⟨hunits, hread⟩ := Double.ofDecimal_whole h
  obtain ⟨hle, hlt⟩ := Double.nearestUnits_whole h
  have hliteral : literal = _ := Literal.number_whole h
  have hvalue : x.toInt? = some (Double.nearestUnits n 1 : Int) :=
    (congrArg Double.toInt? hread).trans (Double.toInt?_whole _ hunits)
  have hsource := ofSource_digits hdigits
  refine ⟨Double.ofDecimal_isNearest h, hsource, fun session fuel => ?_, fun hn => ?_, fun hn => ?_,
    ⟨?_, fun haligned => ?_⟩, fun hn => ?_⟩
  · exact Session.eval_literal (hsource session.unnamed) fuel
  · have hint := hlt.mpr hn
    rw [if_pos hint] at hliteral
    exact ⟨_, hliteral, by rw [hvalue, toInt_ofInt_of_lt hint]⟩
  · have hlarge : ¬Double.nearestUnits n 1 < 9223372036854775808 := by
      rw [hlt]
      omega
    rw [if_neg hlarge] at hliteral
    have htop : Double.nearestUnits n 1 = 9223372036854775808 := by omega
    exact ⟨hliteral, by rw [hvalue, htop]; rfl⟩
  · rintro ⟨i, hi, hexact⟩
    have hint : Double.nearestUnits n 1 < 9223372036854775808 := by
      by_contra hlarge
      rw [if_neg hlarge, hi] at hliteral
      cases hliteral
    rw [if_pos hint, hi] at hliteral
    rw [Literal.int.inj hliteral, toInt_ofInt_of_lt hint] at hexact
    rw [← Int.natCast_inj.mp hexact]
    exact Double.aligned_nearestUnits Nat.one_pos
  · have hexact := Double.nearestUnits_of_aligned haligned
    have hint : Double.nearestUnits n 1 < 9223372036854775808 := by omega
    rw [if_pos hint, hexact] at hliteral
    exact ⟨_, hliteral, toInt_ofInt_of_lt (by omega)⟩
  · have haligned := Double.aligned_shift (show n ≤ 1 <<< 53 from hn) 0
    rwa [Nat.shiftLeft_zero] at haligned

/-- The largest integer is too near to a power of two to be one after it was read. -/
theorem largest_number_nearest : Lexeme.IsDigits "9223372036854775807".toList ∧
    Lexeme.digitsValue "9223372036854775807".toList ≤ 9223372036854775807 ∧
    Literal.number (.ofDecimal (Lexeme.digitsValue "9223372036854775807".toList) 0) =
      .float (.ofDecimal (Lexeme.digitsValue "9223372036854775807".toList) 0) := by
  have hdigits : Lexeme.IsDigits "9223372036854775807".toList :=
    ⟨by decide, List.all_eq_true.mp (by decide)⟩
  have h : Lexeme.digitsValue "9223372036854775807".toList ≤ 9223372036854775807 := by decide
  obtain ⟨-, -, -, -, hlarge, -⟩ := number_nearest hdigits h
  exact ⟨hdigits, h, (hlarge (by decide)).1⟩

/-- The first whole number that does not keep its value. -/
theorem number_loses_unit : Lexeme.IsDigits "9007199254740993".toList ∧
    Lexeme.digitsValue "9007199254740993".toList = 9007199254740993 ∧
    (∀ unnamed, (ofSource "9007199254740993" unnamed).result = .ok ⟨[.expression
      (.literal (.int 9007199254740992) ⟨⟨0, 16, 1⟩, none⟩)]⟩) ∧
    ∀ session : Session, (session.eval 3 "9007199254740993").2 = .ok (.int 9007199254740992) := by
  have hdigits : Lexeme.IsDigits "9007199254740993".toList :=
    ⟨by decide, List.all_eq_true.mp (by decide)⟩
  have hliteral : Literal.number
      (.ofDecimal (Lexeme.digitsValue "9007199254740993".toList) 0) = .int 9007199254740992 := by
    decide +kernel
  have hsource := ofSource_digits hdigits
  rw [hliteral] at hsource
  exact ⟨hdigits, by decide, hsource, fun session =>
    Session.eval_literal (hsource session.unnamed) 0⟩

end Program

end Scriptlet
