/-! What the arguments of the program ask for. Options may stand before and after the name of
the script; each may be given once, and after a lone `--` every argument is a name. -/

namespace Scriptlet

inductive DumpFormat where
  | sexp
  | json
deriving DecidableEq, Repr

def DumpFormat.ofName? : String → Option DumpFormat
  | "sexp" => some sexp
  | "json" => some json
  | _ => none

structure Options where
  file : Option String := none
  noCheck : Bool := false
  dumpTokens : Bool := false
  dumpTree : Bool := false
  format : Option DumpFormat := none
  log : Option String := none
deriving DecidableEq, Repr

inductive Usage where
  | help
  | wrong
deriving DecidableEq, Repr

namespace Options

def splitLong (argument : String) : Option (String × Option String) :=
  match argument.toList with
  | '-' :: '-' :: body =>
      let name := String.ofList (body.takeWhile (· != '='))
      match body.dropWhile (· != '=') with
      | [] => some (name, none)
      | _ :: value => some (name, some (String.ofList value))
  | _ => none

/-- Whether an argument cannot be the value of the option before it. -/
def looksLikeOption (argument : String) : Bool :=
  match argument.toList with
  | '-' :: _ :: _ => true
  | _ => false

def setFile (options : Options) (name : String) : Except Usage Options :=
  if options.file.isSome || name.isEmpty then .error .wrong
  else .ok { options with file := some name }

def setValue (options : Options) (name value : String) : Except Usage Options :=
  match name with
  | "ast-format" =>
      match options.format, DumpFormat.ofName? value with
      | none, some format => .ok { options with format := some format }
      | _, _ => .error .wrong
  | "log" =>
      if options.log.isSome then .error .wrong else .ok { options with log := some value }
  | _ => .error .wrong

def setFlag (options : Options) (name : String) : Except Usage Options :=
  match name with
  | "no-check" => if options.noCheck then .error .wrong else .ok { options with noCheck := true }
  | "dump-tokens" =>
      if options.dumpTokens then .error .wrong else .ok { options with dumpTokens := true }
  | "dump-ast" =>
      if options.dumpTree then .error .wrong else .ok { options with dumpTree := true }
  | "help" => .error .help
  | _ => .error .wrong

def takesValue (name : String) : Bool := name == "ast-format" || name == "log"

/-- Short options: only the one for help exists. -/
def short (argument : String) : Usage :=
  match argument.toList with
  | '-' :: 'h' :: _ => .help
  | _ => .wrong

/-- Adds what the arguments ask for to what is known, from left to right. -/
def extend (options : Options) : List String → Except Usage Options
  | [] => .ok options
  | "--" :: names => names.foldlM setFile options
  | argument :: rest =>
      match splitLong argument with
      | some (name, some value) => do extend (← setValue options name value) rest
      | some (name, none) =>
          if takesValue name then
            match rest with
            | value :: rest =>
                if looksLikeOption value then .error .wrong
                else do extend (← setValue options name value) rest
            | [] => .error .wrong
          else do extend (← setFlag options name) rest
      | none =>
          if looksLikeOption argument then .error (short argument)
          else do extend (← setFile options argument) rest

def parse (arguments : List String) : Except Usage Options := extend {} arguments

end Options

end Scriptlet
