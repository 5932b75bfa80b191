/-!
The built-in operators: their names and how many arguments each takes. What they
compute is in `FieldCalculus.Builtin.Call`.
-/

namespace FieldCalculus

/-- The pure operators of the calculus. -/
inductive Builtin where
  | add | sub | mul | div | neg | abs
  | min | max
  | eq | neq | lt | le | gt | ge
  | and | or | not
  | mux
  | tuple | get
  | concat
deriving DecidableEq, Inhabited

namespace Builtin

/-- Every operator, in the order that numbers them on the wire. -/
def all : List Builtin :=
  [add, sub, mul, div, neg, abs, min, max, eq, neq, lt, le, gt, ge, and, or, not, mux,
   tuple, get, concat]

/-- The name with which an operator is displayed. -/
def name : Builtin → String
  | add => "add"
  | sub => "sub"
  | mul => "mul"
  | div => "div"
  | neg => "neg"
  | abs => "abs"
  | min => "min"
  | max => "max"
  | eq => "eq"
  | neq => "neq"
  | lt => "lt"
  | le => "le"
  | gt => "gt"
  | ge => "ge"
  | and => "and"
  | or => "or"
  | not => "not"
  | mux => "mux"
  | tuple => "tuple"
  | get => "get"
  | concat => "concat"

/-- The name with which an operator is written in a program: the displayed name with
a capital letter. -/
def constructorName (b : Builtin) : String := b.name.capitalize

/-- The operator that is written with this name. -/
def ofConstructorName? (text : String) : Option Builtin :=
  all.find? fun b => b.constructorName = text

/-- The number of arguments an operator takes; `none` if it takes any number. -/
def arity : Builtin → Option Nat
  | tuple => none
  | neg | abs | not => some 1
  | mux => some 3
  | _ => some 2

theorem mem_all (b : Builtin) : b ∈ all := by
  cases b <;> decide

end Builtin

end FieldCalculus
