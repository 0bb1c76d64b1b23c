import Scriptlet.Decimal.Layout

/-! Structured data and its written form: one item a line, two spaces of indentation for each
level, and nothing between the brackets of an empty list. -/

namespace Scriptlet

inductive Json where
  | null
  | bool (value : Bool)
  | int (value : Int)
  | float (value : Double)
  | string (value : String)
  | array (items : List Json)
  | object (fields : List (String × Json))

namespace Json

def hexDigit (n : Nat) : Char := Nat.digitChar (n % 16)

def escape (c : Char) : String :=
  if c = '"' then "\\\""
  else if c = '\\' then "\\\\"
  else if c = '\n' then "\\n"
  else if c = '\r' then "\\r"
  else if c = '\t' then "\\t"
  else if c = '\x08' then "\\b"
  else if c = '\x0c' then "\\f"
  else if c.toNat < 32 then
    "\\u00" ++ String.singleton (hexDigit (c.toNat / 16)) ++ String.singleton (hexDigit c.toNat)
  else String.singleton c

def quote (s : String) : String :=
  "\"" ++ s.foldl (fun text c => text ++ escape c) "" ++ "\""

def margin (level : Nat) : String := "".pushn ' ' (2 * level)

mutual

def write (level : Nat) : Json → String
  | .null => "null"
  | .bool value => if value then "true" else "false"
  | .int value => toString value
  | .float value => value.dumpText?.getD "null"
  | .string value => quote value
  | .array [] => "[]"
  | .array (item :: rest) =>
      "[\n" ++ margin (level + 1) ++ write (level + 1) item ++ writeItems (level + 1) rest ++
        "\n" ++ margin level ++ "]"
  | .object [] => "\x7b\x7d"
  | .object ((key, value) :: rest) =>
      "\x7b\n" ++ margin (level + 1) ++ quote key ++ ": " ++ write (level + 1) value ++
        writeFields (level + 1) rest ++ "\n" ++ margin level ++ "\x7d"

def writeItems (level : Nat) : List Json → String
  | [] => ""
  | item :: rest => ",\n" ++ margin level ++ write level item ++ writeItems level rest

def writeFields (level : Nat) : List (String × Json) → String
  | [] => ""
  | (key, value) :: rest =>
      ",\n" ++ margin level ++ quote key ++ ": " ++ write level value ++ writeFields level rest

end

def pretty (data : Json) : String := write 0 data

end Json

end Scriptlet
