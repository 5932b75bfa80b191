import FieldCalculus.Expr
import FieldCalculus.Fault

/-!
The type of a value and the payload behind it. Asking for a payload of another type
is a type mismatch.
-/

namespace FieldCalculus.Value

def type : Value → ValueType
  | unit => .unit
  | bool _ => .bool
  | number _ => .number
  | text _ => .text
  | tuple _ => .tuple
  | builtin _ | closure _ _ _ _ => .function

/-- The fault of finding `v` where something else is wanted. -/
def mismatch (expected : Expectation) (v : Value) : Fault := .typeMismatch expected v.type

def asBool : Value → Except Fault Bool
  | bool b => .ok b
  | v => .error (mismatch (.ofType .bool) v)

def asNumber : Value → Except Fault Number
  | number n => .ok n
  | v => .error (mismatch (.ofType .number) v)

def asText : Value → Except Fault String
  | text s => .ok s
  | v => .error (mismatch (.ofType .text) v)

def asTuple : Value → Except Fault (List Value)
  | tuple items => .ok items
  | v => .error (mismatch (.ofType .tuple) v)

end FieldCalculus.Value
