import Scriptlet.Ty

/-! The functions that every script can use without declaring them. -/

namespace Scriptlet

inductive Builtin where
  | clock
  | print
  | println
deriving DecidableEq, Repr

namespace Builtin

def all : List Builtin := [clock, print, println]

theorem mem_all (builtin : Builtin) : builtin ∈ all := by
  cases builtin <;> decide

def name : Builtin → String
  | clock => "clock"
  | print => "print"
  | println => "println"

def ofName? (name : String) : Option Builtin := all.find? (·.name == name)

def arity : Builtin → Nat
  | clock => 0
  | print | println => 1

/-- A parameter of type none takes an argument of any type. -/
def signature : Builtin → Ty
  | clock => .function [] .int
  | print | println => .function [.nothing] .nothing

def text (builtin : Builtin) : String := s!"<native fn {builtin.name}>"

end Builtin

end Scriptlet
