/-! Static types. Two types are the same when they are built alike; a name that is not one of
the language's own stands for itself. -/

namespace Scriptlet

inductive Ty where
  | int
  | float
  | string
  | bool
  | nothing
  | function (params : List Ty) (result : Ty)
  | user (name : String)
deriving Repr, Inhabited

namespace Ty

mutual

def decEq : (a b : Ty) → Decidable (a = b)
  | .int, b => match b with
    | .int => isTrue rfl
    | .float | .string | .bool | .nothing | .function .. | .user _ => isFalse nofun
  | .float, b => match b with
    | .float => isTrue rfl
    | .int | .string | .bool | .nothing | .function .. | .user _ => isFalse nofun
  | .string, b => match b with
    | .string => isTrue rfl
    | .int | .float | .bool | .nothing | .function .. | .user _ => isFalse nofun
  | .bool, b => match b with
    | .bool => isTrue rfl
    | .int | .float | .string | .nothing | .function .. | .user _ => isFalse nofun
  | .nothing, b => match b with
    | .nothing => isTrue rfl
    | .int | .float | .string | .bool | .function .. | .user _ => isFalse nofun
  | .user m, b => match b with
    | .user n => if h : m = n then isTrue (by rw [h]) else isFalse (by simp [h])
    | .int | .float | .string | .bool | .nothing | .function .. => isFalse nofun
  | .function ps r, b => match b with
    | .function qs s =>
        match decEqList ps qs, decEq r s with
        | isTrue hp, isTrue hr => isTrue (by rw [hp, hr])
        | isFalse hp, _ => isFalse (by simp [hp])
        | _, isFalse hr => isFalse (by simp [hr])
    | .int | .float | .string | .bool | .nothing | .user _ => isFalse nofun

def decEqList : (as bs : List Ty) → Decidable (as = bs)
  | [], [] => isTrue rfl
  | [], _ :: _ | _ :: _, [] => isFalse nofun
  | a :: as, b :: bs =>
      match decEq a b, decEqList as bs with
      | isTrue h, isTrue hs => isTrue (by rw [h, hs])
      | isFalse h, _ => isFalse (by simp [h])
      | _, isFalse hs => isFalse (by simp [hs])

end

instance : DecidableEq Ty := decEq

mutual

def text : Ty → String
  | .int => "int"
  | .float => "float"
  | .string => "string"
  | .bool => "bool"
  | .nothing => "none"
  | .function params result => "fn(" ++ ", ".intercalate (texts params) ++ ") -> " ++ text result
  | .user name => name

def texts : List Ty → List String
  | [] => []
  | ty :: rest => text ty :: texts rest

end

theorem texts_eq_map (types : List Ty) : texts types = types.map text := by
  induction types with
  | nil => rfl
  | cons ty rest ih => simp [texts, ih]

def isNumeric : Ty → Bool
  | .int | .float => true
  | _ => false

def ofName (name : String) : Ty :=
  match name with
  | "int" => .int
  | "float" => .float
  | "string" => .string
  | "bool" => .bool
  | "none" => .nothing
  | _ => .user name

end Ty

end Scriptlet
