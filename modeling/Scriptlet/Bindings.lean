/-! Names bound to things, each name once, in the order in which they were first bound. -/

namespace Scriptlet

abbrev Bindings (α : Type) := List (String × α)

namespace Bindings

variable {α : Type}

def find? : Bindings α → String → Option α
  | [], _ => none
  | (key, value) :: rest, name => if key = name then some value else find? rest name

def insert : Bindings α → String → α → Bindings α
  | [], name, value => [(name, value)]
  | (key, old) :: rest, name, value =>
      if key = name then (key, value) :: rest else (key, old) :: insert rest name value

@[simp] theorem find?_nil (name : String) : find? ([] : Bindings α) name = none := rfl

@[simp] theorem find?_insert_self (bindings : Bindings α) (name : String) (value : α) :
    find? (insert bindings name value) name = some value := by
  induction bindings with
  | nil => simp [insert, find?]
  | cons entry rest ih =>
      by_cases h : entry.1 = name <;> simp [insert, find?, h, ih]

theorem find?_insert_of_ne (bindings : Bindings α) {name other : String} (value : α)
    (h : name ≠ other) : find? (insert bindings name value) other = find? bindings other := by
  induction bindings with
  | nil => simp [insert, find?, h]
  | cons entry rest ih =>
      by_cases hname : entry.1 = name
      · have hother : entry.1 ≠ other := fun e => h (hname.symm.trans e)
        simp [insert, find?, hname, h]
      · simp [insert, find?, hname, ih]

theorem find?_map {ι : Type} (items : List ι) (key : ι → String) (value : ι → α)
    (name : String) :
    find? (items.map fun item => (key item, value item)) name =
      (items.find? (key · = name)).map value := by
  induction items with
  | nil => rfl
  | cons item rest ih => by_cases h : key item = name <;> simp [find?, h, ih]

end Bindings

end Scriptlet
