import FieldCalculus.Path

/-!
What can go wrong in an evaluation, and where. A `Fault` is a cause with its data;
its wording is in one place.
-/

namespace FieldCalculus

/-- The types that values come in. -/
inductive ValueType where
  | unit | bool | number | text | tuple | function
deriving DecidableEq

/-- The name of a type in messages. -/
def ValueType.name : ValueType → String
  | unit => "unit"
  | bool => "bool"
  | number => "number"
  | text => "text"
  | tuple => "tuple"
  | function => "function"

/-- What was asked of a value. -/
inductive Expectation where
  | ofType (type : ValueType)
  /-- A value that has a place in the order of values. -/
  | comparable
  /-- A whole number below the length of the tuple. -/
  | tupleIndex
deriving DecidableEq

/-- The name of an expectation in messages. -/
def Expectation.name : Expectation → String
  | ofType type => type.name
  | comparable => "comparable value"
  | tupleIndex => "tuple index"

/-- The causes of a failed evaluation. -/
inductive Fault where
  | unboundVariable (name : String)
  | typeMismatch (expected : Expectation) (found : ValueType)
  | arityMismatch (expected found : Nat)
  | sensorUnavailable (name : String)
  /-- A neighbor's value was asked for where no neighbor is in focus. -/
  | unalignedRead
  /-- Calls were nested deeper than an evaluation may go. -/
  | depthExceeded
deriving DecidableEq

namespace Fault

/-- The cause in words. -/
def message : Fault → String
  | unboundVariable name => "unbound variable `" ++ name ++ "`"
  | typeMismatch expected found =>
    "type mismatch: expected " ++ expected.name ++ ", found " ++ found.name
  | arityMismatch expected found =>
    "arity mismatch: expected " ++ toString expected ++ " arguments, found " ++ toString found
  | sensorUnavailable name => "sensor `" ++ name ++ "` unavailable"
  | unalignedRead => "neighbor value read outside of a neighbor fold"
  | depthExceeded => "evaluation depth exceeded"

/-- The short name under which a cause is counted. -/
def label : Fault → String
  | unboundVariable _ => "unbound_variable"
  | typeMismatch _ _ => "type_mismatch"
  | arityMismatch _ _ => "arity_mismatch"
  | sensorUnavailable _ => "sensor_unavailable"
  | unalignedRead => "unaligned_read"
  | depthExceeded => "depth_exceeded"

end Fault

/-- A cause and the path at which evaluation stopped. -/
structure EvalError where
  fault : Fault
  path : Path
deriving DecidableEq

/-- The error in words, with its place. -/
def EvalError.message (e : EvalError) : String :=
  e.fault.message ++ " at " ++ Path.display e.path

end FieldCalculus
