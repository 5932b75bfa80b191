/-!
Binary64 numbers as 64-bit words, with arithmetic by exact integers. Every finite
number is a whole multiple of the least positive one, its *unit*; an operation
computes the exact result in units and rounds once, to the nearest number and to
the even word on a tie. Equality of words is identity; the equality and the order
that programs see are `equals` and `totalOrder`.
-/

namespace FieldCalculus

/-- A binary64 number. Two numbers are the same `Number` when they agree bit for
bit, so the two zeros and all the NaNs are told apart. -/
structure Number where
  bits : UInt64
deriving DecidableEq, Inhabited

namespace Number

/-- The word whose only set bit is the sign. -/
def signWord : UInt64 := 0x8000000000000000

/-- The word of positive infinity; greater magnitudes are NaNs. -/
def infinityWord : UInt64 := 0x7ff0000000000000

/-- Whether the sign bit is set. -/
def isNegative (n : Number) : Bool := n.bits &&& signWord != 0

/-- The word without its sign bit. -/
def magnitude (n : Number) : UInt64 := n.bits &&& ~~~signWord

def isNaN (n : Number) : Bool := infinityWord < n.magnitude
def isInfinite (n : Number) : Bool := n.magnitude == infinityWord
def isFinite (n : Number) : Bool := n.magnitude < infinityWord
def isZero (n : Number) : Bool := n.magnitude == 0

def zero : Number := ⟨0⟩
def negativeZero : Number := ⟨signWord⟩
def infinity : Number := ⟨infinityWord⟩
def nan : Number := ⟨0x7ff8000000000000⟩

/-- The number of a magnitude word, given a sign. -/
def ofMagnitude (negative : Bool) (word : Nat) : Number :=
  ⟨UInt64.ofNat word ||| if negative then signWord else 0⟩

/-! ## Equality and order -/

/-- Equality of the calculus: no NaN equals anything, and the zeros are equal. -/
def equals (a b : Number) : Bool :=
  !a.isNaN && !b.isNaN && (a.bits == b.bits || (a.isZero && b.isZero))

/-- Position in the total order of all words: negative words reversed, below the
positive ones. -/
def rank (n : Number) : UInt64 :=
  if n.isNegative then ~~~n.bits else n.bits ||| signWord

/-- The total order: negative NaNs, negative numbers, `-0`, `0`, positive numbers,
positive NaNs. -/
def totalOrder (a b : Number) : Ordering := compare a.rank b.rank

/-! ## Exact value and rounding -/

/-- How many units make one. -/
def unitsPerOne : Nat := 1 <<< 1074

/-- The value of a finite magnitude word, counted in units. -/
def unitsOfWord (word : Nat) : Nat :=
  let field := word >>> 52
  let fraction := word % (1 <<< 52)
  if field = 0 then fraction else ((1 <<< 52) + fraction) <<< (field - 1)

/-- The value of a finite number without its sign, counted in units. -/
def units (n : Number) : Nat := unitsOfWord n.magnitude.toNat

/-- The value of a finite number, counted in units. -/
def signedUnits (n : Number) : Int := if n.isNegative then -(n.units : Int) else n.units

/-- `num / den` to the nearest whole number, a half to the even one. -/
def roundDiv (num den : Nat) : Nat :=
  let floor := num / den
  let rest := num % den
  if den < 2 * rest || (den == 2 * rest && floor % 2 == 1) then floor + 1 else floor

/-- The magnitude word nearest to `num / den` units; what is too great becomes
infinity. With `s` low bits given up, the word is `s` steps of `2 ^ 52` plus the
rounded quotient, and a carry out of the quotient lands in the exponent. -/
def roundUnits (num den : Nat) : Nat :=
  let shift := (num / den).log2 - 52
  min ((shift <<< 52) + roundDiv num (den <<< shift)) infinityWord.toNat

/-- The number nearest to `num / den`. -/
def ofRatio (negative : Bool) (num den : Nat) : Number :=
  ofMagnitude negative (roundUnits (num * unitsPerOne) den)

/-- The number nearest to a natural number; exact up to `2 ^ 53`. -/
def ofNat (n : Nat) : Number := ofRatio false n 1

/-- The number nearest to an integer. -/
def ofInt (n : Int) : Number := ofRatio (n < 0) n.natAbs 1

instance (n : Nat) : OfNat Number n := ⟨ofNat n⟩

/-- The natural number that a number is, if it is one. Both zeros are `0`. -/
def toNat? (n : Number) : Option Nat :=
  if !n.isFinite || (n.isNegative && !n.isZero) || n.units % unitsPerOne != 0 then none
  else some (n.units / unitsPerOne)

/-! ## Arithmetic -/

/-- Flips the sign bit, also of a NaN. -/
def neg (n : Number) : Number := ⟨n.bits ^^^ signWord⟩

/-- Clears the sign bit, also of a NaN. -/
def abs (n : Number) : Number := ⟨n.magnitude⟩

/-- The sum, rounded. If it is no number, the result is `nan`, one of the NaNs that it may be: the
sign and the payload are left open, although `totalOrder` reads the sign. -/
def add (a b : Number) : Number :=
  if a.isNaN || b.isNaN then nan
  else if a.isInfinite then
    if b.isInfinite && a.isNegative != b.isNegative then nan else a
  else if b.isInfinite then b
  else
    let sum := a.signedUnits + b.signedUnits
    if sum = 0 then if a.isNegative && b.isNegative then negativeZero else zero
    else ofMagnitude (sum < 0) (roundUnits sum.natAbs 1)

/-- The difference, rounded; a NaN is one of those left open, as for `add`. -/
def sub (a b : Number) : Number := a.add b.neg

/-- The product, rounded. If it is no number, the result is `nan`, one of the NaNs left open, as for
`add`. -/
def mul (a b : Number) : Number :=
  let negative := a.isNegative != b.isNegative
  if a.isNaN || b.isNaN then nan
  else if a.isInfinite || b.isInfinite then
    if a.isZero || b.isZero then nan else ofMagnitude negative infinityWord.toNat
  else ofMagnitude negative (roundUnits (a.units * b.units) unitsPerOne)

/-- The quotient, rounded. If it is no number, the result is `nan`, one of the NaNs left open, as for
`add`. -/
def div (a b : Number) : Number :=
  let negative := a.isNegative != b.isNegative
  if a.isNaN || b.isNaN then nan
  else if a.isInfinite then
    if b.isInfinite then nan else ofMagnitude negative infinityWord.toNat
  else if b.isInfinite then ofMagnitude negative 0
  else if b.isZero then
    if a.isZero then nan else ofMagnitude negative infinityWord.toNat
  else ofMagnitude negative (roundUnits (a.units * unitsPerOne) b.units)

theorem neg_neg (n : Number) : n.neg.neg = n := by
  simp only [neg, UInt64.xor_assoc, UInt64.xor_self, UInt64.xor_zero]

theorem equals_comm (a b : Number) : a.equals b = b.equals a := by
  unfold equals
  rw [Bool.and_comm (!a.isNaN), Bool.and_comm a.isZero, BEq.comm]

end Number

end FieldCalculus
