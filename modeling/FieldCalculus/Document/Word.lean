import FieldCalculus.Number.Decimal
import FieldCalculus.Text.Blank
import FieldCalculus.Text.Hex

/-!
Bare words: texts without quotes whose meaning depends on what is asked of them. The
same word may be read as a number, as a truth value or as the text that it is.
-/

namespace FieldCalculus.Word

open Text

/-- The longest front of a text that consists of digits, and what follows. -/
def spanDigits (s : List Char) : List Char × List Char := (s.takeWhile isDigit, s.dropWhile isDigit)

/-- A whole number with an optional sign, which ends the text. -/
def signedNat? : List Char → Option Int
  | '-' :: s => (digits? s).map fun n => -(n : Int)
  | '+' :: s => (digits? s).map fun n => (n : Int)
  | s => (digits? s).map fun n => (n : Int)
where
  /-- At least one digit and nothing else. -/
  digits? (s : List Char) : Option Nat :=
    if s.isEmpty || !s.all isDigit then none else some (natOfDigits s)

/-- An exponent: a letter, an optional sign and digits. No exponent is zero. -/
def exponent? : List Char → Option Int
  | [] => some 0
  | c :: s => if c = 'e' || c = 'E' then signedNat? s else none

/-- A decimal without sign: digits with an optional point among or around them, then an
optional exponent. -/
def decimal? (s : List Char) : Option Decimal := do
  let (whole, s) := spanDigits s
  let (fraction, s) := match s with
    | '.' :: s => spanDigits s
    | s => ([], s)
  if whole.isEmpty && fraction.isEmpty then none
  let e ← exponent? s
  return ⟨natOfDigits (whole ++ fraction), e - fraction.length⟩

/-- A number in decimal, or the name of infinity or of no number, with an optional sign. -/
def float? (s : List Char) : Option Number :=
  match s with
  | '-' :: s => unsigned? true s
  | '+' :: s => unsigned? false s
  | s => unsigned? false s
where
  unsigned? (negative : Bool) (s : List Char) : Option Number :=
    let name := String.ofList (s.map Char.toLower)
    if name = "inf" || name = "infinity" then
      some (if negative then Number.infinity.neg else .infinity)
    else if name = "nan" then some (if negative then Number.nan.neg else .nan)
    else (decimal? s).map fun d => d.toNumber negative

/-- The number that a word stands for: a finite one in decimal, or one of the words for
infinity and for no number, which start with a point. -/
def number? (word : String) : Option Number :=
  let s := word.toList
  let bare := match s with
    | '+' :: rest => rest
    | s => s
  let signedTwice := match s with
    | '+' :: '+' :: _ | '+' :: '-' :: _ => true
    | _ => false
  if signedTwice then none
  else if [".inf", ".Inf", ".INF"].contains (String.ofList bare) then some .infinity
  else if ["-.inf", "-.Inf", "-.INF"].contains word then some Number.infinity.neg
  else if [".nan", ".NaN", ".NAN"].contains word then some .nan
  else (float? bare).filter Number.isFinite

/-- The truth value that a word stands for. -/
def bool? (word : String) : Option Bool :=
  if ["true", "True", "TRUE"].contains word then some true
  else if ["false", "False", "FALSE"].contains word then some false
  else none

/-- Whether a word stands for nothing. -/
def isNull (word : String) : Bool := ["", "~", "null", "Null", "NULL"].contains word

/-- The value of digits in a base up to sixteen; at least one digit and nothing else. -/
def natInBase? (base : Nat) (s : List Char) : Option Nat :=
  if s.isEmpty then none
  else s.foldlM (fun n c => (hexValue? c).bind fun d => if d < base then some (base * n + d) else none) 0

/-- Whether a whole number fits into 64 bits with a sign. -/
def fitsSigned (n : Int) : Bool := Int64.minValue.toInt ≤ n && n ≤ Int64.maxValue.toInt

/-- The base that a marker at the start of digits announces. -/
def marked? : List Char → Option (Nat × List Char)
  | '0' :: 'x' :: s => some (16, s)
  | '0' :: 'o' :: s => some (8, s)
  | '0' :: 'b' :: s => some (2, s)
  | _ => none

/-- Whether a word is a whole number in one of the marked bases that fits into 128 bits. -/
def isMarkedInteger : List Char → Bool
  | '-' :: s => fits s ((1 <<< 127) + 1)
  | '+' :: s => fits s (1 <<< 128)
  | s => fits s (1 <<< 128)
where
  fits (s : List Char) (bound : Nat) : Bool :=
    ((marked? s).bind fun (base, digits) => natInBase? base digits).any (· < bound)

/-- Whether a word consists of digits that start with a needless zero, after an optional
sign. Such a word is text, but text that is easily mistaken for a number. -/
def hasNeedlessZero (word : String) : Bool :=
  let digits := match word.toList with
    | '-' :: s | '+' :: s => s
    | s => s
  1 < digits.length && digits.head? = some '0' && digits.all isDigit

/-- Whether a word can only be read as the text that it is. -/
def isPlainText (word : String) : Bool :=
  !isNull word && (bool? word).isNone && !isMarkedInteger word.toList &&
    (number? word).isNone && !hasNeedlessZero word

end FieldCalculus.Word
