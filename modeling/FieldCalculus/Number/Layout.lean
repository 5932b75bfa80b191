import FieldCalculus.Number.Decimal

/-!
The text of a number. All texts share the shortest digits; a `Layout` records what
is left to decide: where positional notation ends, how an exponent is written and
what stands for the numbers that have no digits.
-/

namespace FieldCalculus.Number

/-- The decisions of one way of writing numbers. -/
structure Layout where
  /-- Whether a number whose first digit stands for this power of ten is written
  without an exponent. -/
  positional : Int → Bool
  /-- What follows a whole number written without an exponent. -/
  wholeSuffix : String
  /-- What stands before an exponent that is not negative. -/
  exponentSign : String
  notANumber : String
  infinite : String
  negativeInfinite : String

/-- Digits with a point after the first `whole` of them, zeros filling what is missing. -/
def placePoint (digits : String) (whole : Int) (wholeSuffix : String) : String :=
  let zeros (k : Int) := String.ofList (List.replicate k.toNat '0')
  if whole ≤ 0 then "0." ++ zeros (-whole) ++ digits
  else if digits.length ≤ whole then digits ++ zeros (whole - digits.length) ++ wholeSuffix
  else (digits.take whole.toNat).toString ++ "." ++ (digits.drop whole.toNat).toString

/-- The first digit, a point before the others, and the power of ten of the first. -/
def scientific (digits : String) (power : Int) (exponentSign : String) : String :=
  let mantissa := if digits.length ≤ 1 then digits else placePoint digits 1 ""
  mantissa ++ "e" ++ (if power < 0 then "-" else exponentSign) ++ toString power.natAbs

/-- The text of a number in a layout. -/
def text (layout : Layout) (n : Number) : String :=
  if n.isNaN then layout.notANumber
  else if n.isInfinite then
    if n.isNegative then layout.negativeInfinite else layout.infinite
  else
    let d := Decimal.shortest n
    let digits := toString d.coefficient
    let power := d.exponent + digits.length - 1
    let body :=
      if layout.positional power then placePoint digits (power + 1) layout.wholeSuffix
      else scientific digits power layout.exponentSign
    if n.isNegative then "-" ++ body else body

namespace Layout

/-- The display of values: never an exponent, and whole numbers without a point. -/
def display : Layout where
  positional _ := true
  wholeSuffix := ""
  exponentSign := ""
  notANumber := "NaN"
  infinite := "inf"
  negativeInfinite := "-inf"

/-- Structured texts write an exponent from `1e16` up and below `1e-5`, and mark
whole numbers by `.0`. -/
def structuredPositional (power : Int) : Bool := -5 ≤ power && power < 16

/-- Numbers in JSON, where those without digits are null. -/
def json : Layout where
  positional := structuredPositional
  wholeSuffix := ".0"
  exponentSign := "+"
  notANumber := "null"
  infinite := "null"
  negativeInfinite := "null"

/-- Numbers in YAML. -/
def yaml : Layout where
  positional := structuredPositional
  wholeSuffix := ".0"
  exponentSign := ""
  notANumber := ".nan"
  infinite := ".inf"
  negativeInfinite := "-.inf"

end Layout

end FieldCalculus.Number
