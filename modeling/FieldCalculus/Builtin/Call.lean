import FieldCalculus.Value.Order

/-!
What the operators compute. The number of arguments is checked first, then the
arguments from left to right; a connective that its left side decides leaves the
right side unchecked.
-/

namespace FieldCalculus.Builtin

/-- An operation on two numbers. -/
def numeric (op : Number → Number → Number) (a b : Value) : Except Fault Value := do
  let x ← a.asNumber
  let y ← b.asNumber
  return .number (op x y)

/-- A test of how two values are ordered. -/
def ordered (test : Ordering → Bool) (a b : Value) : Except Fault Value := do
  return .bool (test (← a.order b))

/-- The one of two values that is on the wanted side of the other; the left one if
neither is, so that folds stay stable. -/
def pick (side : Ordering) (left right : Value) : Except Fault Value := do
  let o ← left.order right
  return if o = .eq || o = side then left else right

/-- The item at an index, which must be a whole number below the length. -/
def item (collection index : Value) : Except Fault Value := do
  let items ← collection.asTuple
  let n ← index.asNumber
  match n.toNat?.bind fun i => items[i]? with
  | some v => return v
  | none => throw (index.mismatch .tupleIndex)

/-- The result of an operator on as many arguments as it takes. -/
def compute : Builtin → List Value → Except Fault Value
  | add, [a, b] => numeric Number.add a b
  | sub, [a, b] => numeric Number.sub a b
  | mul, [a, b] => numeric Number.mul a b
  | div, [a, b] => numeric Number.div a b
  | neg, [a] => return .number (← a.asNumber).neg
  | abs, [a] => return .number (← a.asNumber).abs
  | min, [a, b] => pick .lt a b
  | max, [a, b] => pick .gt a b
  | eq, [a, b] => return .bool (a.equals b)
  | neq, [a, b] => return .bool (!a.equals b)
  | lt, [a, b] => ordered (· == .lt) a b
  | le, [a, b] => ordered (· != .gt) a b
  | gt, [a, b] => ordered (· == .gt) a b
  | ge, [a, b] => ordered (· != .lt) a b
  | and, [a, b] => do
    if ← a.asBool then return .bool (← b.asBool) else return .bool false
  | or, [a, b] => do
    if ← a.asBool then return .bool true else return .bool (← b.asBool)
  | not, [a] => return .bool (!(← a.asBool))
  | mux, [a, b, c] => do
    if ← a.asBool then return b else return c
  | tuple, args => return .tuple args
  | get, [a, b] => item a b
  | concat, [a, b] => do
    let x ← a.asText
    let y ← b.asText
    return .text (x ++ y)
  | b, args => throw (.arityMismatch (b.arity.getD args.length) args.length)

/-- Applies an operator to its arguments. -/
def call (b : Builtin) (args : List Value) : Except Fault Value :=
  match b.arity with
  | some expected =>
    if args.length = expected then b.compute args
    else throw (.arityMismatch expected args.length)
  | none => b.compute args

end FieldCalculus.Builtin
