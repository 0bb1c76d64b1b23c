import Scriptlet.Event
import Scriptlet.Output
import Scriptlet.Scope

/-! Running programs. A run changes a machine: the scopes, what has been printed, how deep
calls are nested and what could be observed. It ends with a value, with an error, or because
the fuel ran out, and the three are kept apart. -/

namespace Scriptlet

structure Machine where
  scopes : Scopes
  nextIdentity : Nat
  depth : Nat
  output : Output
  /-- A copy of what has been printed, if one is kept. -/
  transcript : Option String
  events : Array Event
  /-- The time at each reading, in milliseconds, and how often it was read. -/
  clock : Nat → Int64
  readings : Nat

inductive Stop where
  | fault (error : RuntimeError)
  | outOfFuel

abbrev Run := EStateM Stop Machine

/-- How a statement ended. A `return` ends everything up to the call around it. -/
inductive Flow where
  | normal (value : Value)
  | returned (value : Value)

def Flow.value : Flow → Value
  | normal value | returned value => value

namespace Machine

def globals : ScopeId := 0

/-- Knows the built-in functions and nothing else. -/
def new (output : Output) (clock : Nat → Int64) : Machine :=
  let scopes := Builtin.all.foldl
    (fun scopes builtin =>
      scopes.define globals builtin.name (.function (.builtin builtin)))
    Scopes.empty.addRoot.1
  ⟨scopes, 0, 0, output, none, #[], clock, 0⟩

/-- A new machine that keeps a copy of what is printed; its output takes everything, and nobody
reads it. -/
def capturing (clock : Nat → Int64) : Machine :=
  { new .unbounded clock with transcript := some "" }

/-- What a machine that keeps a copy has printed so far. -/
def printed (machine : Machine) : String := machine.transcript.getD ""

def global? (machine : Machine) (name : String) : Option Value :=
  machine.scopes.own? globals name

def entered (machine : Machine) (name : String) : Machine :=
  let depth := machine.depth + 1
  { machine with depth := depth, events := machine.events.push (.called name depth) }

def left (machine : Machine) : Machine := { machine with depth := machine.depth - 1 }

end Machine

namespace Run

def fail {α : Type} (fault : RuntimeFault) (span : Span) : Run α := throw (.fault ⟨fault, span⟩)

def ofExcept {α : Type} (span : Span) : Except RuntimeFault α → Run α
  | .ok a => return a
  | .error fault => fail fault span

def lookup (scope : ScopeId) (name : String) : Run (Option Value) := fun machine =>
  .ok (machine.scopes.get? scope name) machine

def isBound (scope : ScopeId) (name : String) : Run Bool := fun machine =>
  .ok (machine.scopes.contains scope name) machine

def define (scope : ScopeId) (name : String) (value : Value) : Run Unit :=
  modify fun machine => { machine with scopes := machine.scopes.define scope name value }

/-- Changes the nearest binding of a name; false if there is none. -/
def assign (scope : ScopeId) (name : String) (value : Value) : Run Bool := fun machine =>
  match machine.scopes.resolve scope name with
  | some nearest =>
      .ok true { machine with scopes := machine.scopes.define nearest name value }
  | none => .ok false machine

theorem assign_eq (scope : ScopeId) (name : String) (value : Value) (machine : Machine) :
    assign scope name value machine =
      match machine.scopes.assign? scope name value with
      | some scopes => .ok true { machine with scopes := scopes }
      | none => .ok false machine := by
  unfold assign Scopes.assign?
  cases machine.scopes.resolve scope name <;> rfl

def inside (outer : ScopeId) : Run ScopeId :=
  modifyGet fun machine =>
    let (scopes, scope) := machine.scopes.addInside outer
    (scope, { machine with scopes := scopes })

/-- A function value unlike all others. -/
def closure (name : String) (decl : FnDecl) (scope : ScopeId) : Run Value :=
  modifyGet fun machine =>
    (.function (.closure ⟨machine.nextIdentity, name, decl, scope⟩),
      { machine with nextIdentity := machine.nextIdentity + 1 })

/-- The value of a function literal. One with a name of its own can call itself by it,
although the name is bound nowhere around it. -/
def functionLiteral (name : String) (decl : FnDecl) (scope : ScopeId) : Run Value := do
  if decl.anonymous then closure name decl scope
  else
    let own ← inside scope
    let value ← closure name decl own
    define own decl.name value
    return value

def emit (text : String) (span : Span) : Run Value := do
  let fits ← modifyGet fun machine =>
    let (output, fits) := machine.output.write text
    (fits, { machine with output := output })
  if fits then
    modify fun machine => { machine with transcript := machine.transcript.map (· ++ text) }
    return .nothing
  else fail .outputFull span

def readClock : Run Value :=
  modifyGet fun machine =>
    (.int (machine.clock machine.readings), { machine with readings := machine.readings + 1 })

def applyBuiltin (builtin : Builtin) (args : List Value) (span : Span) : Run Value :=
  let text := String.join (args.map Value.toText)
  match builtin with
  | .clock => readClock
  | .print => emit text span
  | .println => emit (text ++ "\n") span

/-- Runs the body of a call one level deeper and comes back up however it ends. -/
def nested {α : Type} (name : String) (body : Run α) : Run α := fun machine =>
  match body (machine.entered name) with
  | .ok value machine => .ok value machine.left
  | .error stop machine => .error stop machine.left

def bindParams (scope : ScopeId) (params : List Param) (args : List Value) : Run Unit :=
  (params.zip args).forM fun (param, arg) => define scope param.name arg

def enter (closure : Closure) (args : List Value) : Run ScopeId := do
  let scope ← inside closure.scope
  bindParams scope closure.decl.params args
  return scope

mutual

def evaluate : Nat → ScopeId → Expr → Run Value
  | 0, _, _ => throw .outOfFuel
  | fuel + 1, scope, expr => do
      match expr with
      | .literal value _ => return .ofLiteral value
      | .group inner _ => evaluate fuel scope inner
      | .variable name mark =>
          match ← lookup scope name with
          | some value => return value
          | none => fail (.undefined name) mark.span
      | .assign name value mark =>
          if ← isBound scope name then
            let value ← evaluate fuel scope value
            if ← assign scope name value then return value
          fail (.undeclaredTarget name) mark.span
      | .unary op operand mark =>
          let operand ← evaluate fuel scope operand
          ofExcept mark.span (op.apply operand)
      | .binary op left right mark =>
          let left ← evaluate fuel scope left
          let right ← evaluate fuel scope right
          ofExcept mark.span (op.apply left right)
      | .call callee args mark =>
          match ← evaluate fuel scope callee with
          | .function callable =>
              let args ← evaluateAll fuel scope args
              if args.length = callable.arity then call fuel callable args mark.span
              else fail (.arity callable.arity args.length) mark.span
          | other => fail (.notCallable other.kind) mark.span
      | .function decl _ => functionLiteral decl.name decl scope

def evaluateAll : Nat → ScopeId → List Expr → Run (List Value)
  | 0, _, _ => throw .outOfFuel
  | _ + 1, _, [] => return []
  | fuel + 1, scope, expr :: rest => do
      let value ← evaluate fuel scope expr
      return value :: (← evaluateAll fuel scope rest)

/-- The names of a body are found where its function was made, not where it is called. -/
def call : Nat → Callable → List Value → Span → Run Value
  | 0, _, _, _ => throw .outOfFuel
  | _ + 1, .builtin builtin, args, span => applyBuiltin builtin args span
  | fuel + 1, .closure closure, args, _ =>
      nested closure.name do
        let scope ← enter closure args
        match ← executeAll fuel scope .nothing closure.decl.body with
        | .returned value => return value
        | .normal _ => return .nothing

def execute : Nat → ScopeId → Stmt → Run Flow
  | 0, _, _ => throw .outOfFuel
  | fuel + 1, scope, stmt => do
      match stmt with
      | .expression expr => return .normal (← evaluate fuel scope expr)
      | .binding name _ init _ =>
          let value ← match init with
            | some (.function decl _) => functionLiteral name decl scope
            | some init => evaluate fuel scope init
            | none => pure .nothing
          define scope name value
          return .normal .nothing
      | .block block => executeAll fuel (← inside scope) .nothing block.statements
      | .conditional condition thenBlock otherwise _ =>
          if (← evaluate fuel scope condition).isTruthy then
            executeAll fuel (← inside scope) .nothing thenBlock.statements
          else
            match otherwise with
            | some stmt => execute fuel scope stmt
            | none => return .normal .nothing
      | .loop condition body _ => repeatWhile fuel scope condition body
      | .function decl =>
          let value ← closure decl.name decl scope
          define scope decl.name value
          return .normal (if decl.anonymous then value else .nothing)
      | .ret value _ =>
          match value with
          | some value => return .returned (← evaluate fuel scope value)
          | none => return .returned .nothing

/-- The value of the last statement, or of a `return` before it; `last` if there is none. -/
def executeAll : Nat → ScopeId → Value → List Stmt → Run Flow
  | 0, _, _, _ => throw .outOfFuel
  | _ + 1, _, last, [] => return .normal last
  | fuel + 1, scope, _, stmt :: rest => do
      match ← execute fuel scope stmt with
      | .normal value => executeAll fuel scope value rest
      | .returned value => return .returned value

/-- Every turn of a loop has a scope of its own. -/
def repeatWhile : Nat → ScopeId → Expr → Block → Run Flow
  | 0, _, _, _ => throw .outOfFuel
  | fuel + 1, scope, condition, body => do
      if (← evaluate fuel scope condition).isTruthy then
        match ← executeAll fuel (← inside scope) .nothing body.statements with
        | .normal _ => repeatWhile fuel scope condition body
        | .returned value => return .returned value
      else return .normal .nothing

end

end Run

structure Ended where
  machine : Machine
  result : Except Stop Value

/-- Runs a program at the top. Its value is that of a `return` at the top, or else of its last
statement. -/
def Program.run (program : Program) (fuel : Nat) (machine : Machine) : Ended :=
  match Run.executeAll fuel Machine.globals .nothing program.statements machine with
  | .ok flow machine => ⟨machine, .ok flow.value⟩
  | .error (.fault error) machine =>
      ⟨{ machine with events := machine.events.push (.aborted error) }, .error (.fault error)⟩
  | .error .outOfFuel machine => ⟨machine, .error .outOfFuel⟩

end Scriptlet
