import FieldCalculus.Document
import FieldCalculus.Number.Decimal

/-!
Numbers in JSON. Whole numbers of 64 bits are exact. All others are computed in floating
point: the digits that fit into 64 bits, times or divided by a power of ten. So the
result may differ in its last place from the number nearest to the digits.
-/

namespace FieldCalculus.Json

open Text

/-- A number as it is written. -/
structure NumberText where
  negative : Bool
  whole : List Char
  /-- The digits after the point, if there is one. -/
  fraction : Option (List Char)
  /-- Whether the exponent is negative, and its digits. -/
  exponent : Option (Bool × List Char)
deriving DecidableEq

namespace NumberText

/-- Digits gathered into a significand of 64 bits. -/
structure Gathered where
  significand : Nat
  /-- How many digits were taken in. -/
  taken : Nat
  /-- How many digits were left out, all those from the first that does not fit on. -/
  left : Nat

/-- Takes in digits as long as they fit. -/
def gather (start : Nat) (digits : List Char) : Gathered :=
  match digits with
  | [] => ⟨start, 0, 0⟩
  | c :: rest =>
    let next := 10 * start + (c.toNat - '0'.toNat)
    if UInt64.size ≤ next then ⟨start, 0, rest.length + 1⟩
    else
      let g := gather next rest
      { g with taken := g.taken + 1 }

/-- The greatest power of ten that is used as a factor. -/
def greatestPower : Nat := 308

/-- Ten to a power that a number can have. -/
def powerOfTen (k : Nat) : Number := (Decimal.mk 1 k).toNumber false

/-- Divides by the greatest power of ten so many times, or until nothing is left. -/
def divideByGreatest : Nat → Number → Number
  | 0, value => value
  | times + 1, value =>
    if value.isZero then value else divideByGreatest times (value.div (powerOfTen greatestPower))

/-- Divides by a positive power of ten, in several steps if it is greater than the
greatest one. -/
def scaleDown (value : Number) (exponent : Nat) : Number :=
  let times := (exponent - 1) / greatestPower
  (divideByGreatest times value).div (powerOfTen (exponent - times * greatestPower))

/-- The significand times a power of ten, if that is in range. -/
def scale (significand : Nat) (exponent : Int) : Option Number :=
  let value := Number.ofNat significand
  if exponent < 0 then some (scaleDown value exponent.natAbs)
  else if value.isZero then some value
  else if greatestPower < exponent.natAbs then none
  else
    let product := value.mul (powerOfTen exponent.natAbs)
    if product.isInfinite then none else some product

/-- Exponents are counted in 32 bits with a sign; greater ones have no effect but to make
the number zero or put it out of range. -/
def greatestExponent : Int := Int32.maxValue.toInt

/-- The exponent in range that is nearest to a sum of exponents. -/
def clampExponent (e : Int) : Int := max Int32.minValue.toInt (min e greatestExponent)

/-- Gives a number its sign. -/
def signed (t : NumberText) (value : Number) : Number := if t.negative then value.neg else value

/-- The number in floating point, if it is in range. -/
def float? (t : NumberText) : Option Number :=
  let whole := gather 0 t.whole
  let fraction := gather whole.significand (t.fraction.getD [])
  let start : Int := (whole.left : Int) - fraction.taken
  let value :=
    match t.exponent with
    | none => scale fraction.significand start
    | some (down, digits) =>
      let e := natOfDigits digits
      if greatestExponent < e then
        if fraction.significand = 0 || down then some .zero else none
      else
        scale fraction.significand (clampExponent (if down then start - e else start + e))
  value.map t.signed

/-- What a number stands for. -/
def document (t : NumberText) : Document :=
  let n := natOfDigits t.whole
  let whole := t.fraction.isNone && t.exponent.isNone
  if whole && !t.negative && n < UInt64.size then .int n
  else if whole && t.negative && 0 < n && Int64.minValue.toInt ≤ -n then .int (-n)
  else match t.float? with
    | some value => .number value
    | none => .unreadable

end NumberText

end FieldCalculus.Json
