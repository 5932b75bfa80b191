import FieldCalculus.Value.Basic

/-!
The order of values. Values of one type compare, numbers by the total order of words
and tuples item by item; values of two types do not, and functions never do.
-/

namespace FieldCalculus.Value

mutual

/-- The place of one value against another, or the mismatch that keeps them apart. -/
def order : Value → Value → Except Fault Ordering
  | .unit, .unit => .ok .eq
  | .bool a, .bool b => .ok (compare a b)
  | .number a, .number b => .ok (a.totalOrder b)
  | .text a, .text b => .ok (compare a b)
  | .tuple a, .tuple b => orderItems a b
  | .builtin _, _ => .error (.typeMismatch .comparable .function)
  | .closure _ _ _ _, _ => .error (.typeMismatch .comparable .function)
  | a, b => .error (.typeMismatch (.ofType a.type) b.type)

/-- The first difference decides; where there is none, the shorter list is less. -/
def orderItems : List Value → List Value → Except Fault Ordering
  | [], [] => .ok .eq
  | [], _ :: _ => .ok .lt
  | _ :: _, [] => .ok .gt
  | a :: as, b :: bs =>
    match order a b with
    | .ok .eq => orderItems as bs
    | other => other

end

end FieldCalculus.Value
