import Scriptlet.Span

/-! What is shown of an error, whichever part of the language found it. -/

namespace Scriptlet

inductive Stage where
  | lex (column : Nat)
  | parse
  | typecheck
  | runtime
deriving DecidableEq, Repr

structure Diagnostic where
  stage : Stage
  message : String
  span : Span
deriving DecidableEq, Repr

namespace Diagnostic

def text (d : Diagnostic) : String :=
  match d.stage with
  | .lex column => s!"lex error: line {d.span.line}, column {column}: {d.message}"
  | .parse => s!"parse error: line {d.span.line}: {d.message}"
  | .typecheck => s!"type error: line {d.span.line}: {d.message}"
  | .runtime => s!"runtime error: line {d.span.line}: {d.message}"

def code? (d : Diagnostic) : Option String :=
  match d.stage with
  | .lex _ => some "flyt::lex"
  | .parse => some "flyt::parse"
  | .typecheck => some "flyt::typecheck"
  | .runtime => none

end Diagnostic

end Scriptlet
