import FieldCalculus.Number

/-!
Numbers in decimal. Writing chooses the fewest digits that read back as the same
number, and of two such decimals the nearer one. Reading rounds once, to the
nearest number. How the digits are laid out is left to `Number.Layout`.
-/

namespace FieldCalculus

/-- The decimal `coefficient * 10 ^ exponent`. -/
structure Decimal where
  coefficient : Nat
  exponent : Int
deriving DecidableEq

namespace Decimal

/-- Moves trailing zeros of the coefficient into the exponent. -/
def normalize (d : Decimal) : Decimal :=
  go d.coefficient d.coefficient d.exponent
where
  /-- The fuel is the coefficient itself: each step divides it by ten. -/
  go : Nat → Nat → Int → Decimal
    | 0, c, e => ⟨c, e⟩
    | fuel + 1, c, e => if c % 10 = 0 then go fuel (c / 10) (e + 1) else ⟨c, e⟩

/-- The number nearest to a decimal, given a sign. A decimal too long for its
exponent to matter is zero or infinity without computing the power. -/
def toNumber (negative : Bool) (d : Decimal) : Number :=
  let length : Int := (toString d.coefficient).length
  if d.coefficient = 0 || d.exponent + length < -400 then .ofMagnitude negative 0
  else if 400 < d.exponent + length then .ofMagnitude negative Number.infinityWord.toNat
  else if 0 ≤ d.exponent then .ofRatio negative (d.coefficient * Nat.pow 10 d.exponent.toNat) 1
  else .ofRatio negative d.coefficient (Nat.pow 10 (-d.exponent).toNat)

/-- One step of the search for a short decimal, on the grid of whole multiples of
`10 ^ grid`. The number lies at `value`, and everything between `low` and `high`
rounds to it, the ends too if `closed`; all three are counted in half units. -/
def onGrid? (low value high : Nat) (closed : Bool) (grid : Int) : Option Decimal :=
  let up := Nat.pow 10 (-grid).toNat
  let step := 2 * Number.unitsPerOne * Nat.pow 10 grid.toNat
  let inside (c : Nat) : Bool :=
    let x := c * step
    if closed then low * up ≤ x && x ≤ high * up else low * up < x && x < high * up
  let below := value * up / step
  let nearer := if 2 * (value * up % step) ≤ step then below else below + 1
  if inside nearer then some ⟨nearer, grid⟩
  else if inside below then some ⟨below, grid⟩
  else if inside (below + 1) then some ⟨below + 1, grid⟩
  else none

/-- Tries ever finer grids. -/
def search (low value high : Nat) (closed : Bool) : Nat → Int → Decimal
  | 0, grid => ⟨value * Nat.pow 10 (-grid).toNat / (2 * Number.unitsPerOne), grid⟩
  | fuel + 1, grid =>
    match onGrid? low value high closed grid with
    | some d => d
    | none => search low value high closed fuel (grid - 1)

/-- The shortest decimal that reads back as a finite number without its sign. The
search starts at a power of ten above the number and needs no more than twenty
grids, since seventeen digits always suffice. -/
def shortest (n : Number) : Decimal :=
  let word := n.magnitude.toNat
  if word = 0 then ⟨0, 0⟩ else
  let here := n.units
  let low := here + Number.unitsOfWord (word - 1)
  let high := here + Number.unitsOfWord (word + 1)
  let top : Int := ((here.log2 : Int) - 1073) * 30103 / 100000 + 1
  (search low (2 * here) high (word % 2 == 0) 22 top).normalize

end Decimal

end FieldCalculus
