import FieldCalculus.Json.Number
import FieldCalculus.Text.Hex

/-!
The tokens of JSON. A text that could stand for characters that do not exist is a token
too, since it matters only where its content is asked for.
-/

namespace FieldCalculus.Json

open Text

/-- A token. -/
inductive Token where
  | openList | closeList | openObject | closeObject | colon | comma
  | null
  | bool (b : Bool)
  | number (t : NumberText)
  /-- A text between quotes; `none` if half of a surrogate pair stands alone in it. -/
  | text (s : Option (List Char))
deriving DecidableEq

namespace Token

/-- Four digits in base sixteen. -/
def unit? : List Char → Option (Nat × List Char)
  | a :: b :: c :: d :: rest => do
    some (4096 * (← hexValue? a) + 256 * (← hexValue? b) + 16 * (← hexValue? c) + (← hexValue? d),
      rest)
  | _ => none

def isHighSurrogate (n : Nat) : Bool := 0xd800 ≤ n && n < 0xdc00
def isLowSurrogate (n : Nat) : Bool := 0xdc00 ≤ n && n < 0xe000

/-- The character of a surrogate pair. -/
def paired (high low : Nat) : Char := Char.ofNat (0x10000 + (high - 0xd800) * 0x400 + (low - 0xdc00))

/-- What an escape after a backslash stands for: a character, or half of a pair that has
no other half behind it. -/
def escaped? : List Char → Option (Option Char × List Char)
  | '"' :: rest => some (some '"', rest)
  | '\\' :: rest => some (some '\\', rest)
  | '/' :: rest => some (some '/', rest)
  | 'b' :: rest => some (some '\x08', rest)
  | 'f' :: rest => some (some '\x0c', rest)
  | 'n' :: rest => some (some '\n', rest)
  | 'r' :: rest => some (some '\r', rest)
  | 't' :: rest => some (some '\t', rest)
  | 'u' :: rest => do
    let (n, rest) ← unit? rest
    if isLowSurrogate n then some (none, rest)
    else if isHighSurrogate n then
      match rest with
      | '\\' :: 'u' :: after => do
        let (m, after) ← unit? after
        if isLowSurrogate m then some (some (paired n m), after) else some (none, rest)
      | _ => some (none, rest)
    else some (some (Char.ofNat n), rest)
  | _ => none

/-- The characters up to the closing quote. The fuel bounds the number of characters. -/
def text? : Nat → List Char → Option (Option (List Char) × List Char)
  | _, [] => none
  | 0, _ => none
  | _ + 1, '"' :: rest => some (some [], rest)
  | fuel + 1, '\\' :: rest => do
    let (c, rest) ← escaped? rest
    let (cs, rest) ← text? fuel rest
    some ((do some ((← c) :: (← cs))), rest)
  | fuel + 1, c :: rest =>
    if c.toNat < 0x20 then none
    else do
      let (cs, rest) ← text? fuel rest
      some (cs.map (c :: ·), rest)

/-- At least one digit. -/
def digits? (s : List Char) : Option (List Char × List Char) :=
  let (digits, rest) := Word.spanDigits s
  if digits.isEmpty then none else some (digits, rest)

/-- The digits before the point, which start with zero only for zero itself. -/
def whole? : List Char → Option (List Char × List Char)
  | '0' :: rest => if rest.head?.any isDigit then none else some (['0'], rest)
  | s => digits? s

/-- The point and the digits behind it, if there is a point. -/
def fraction? : List Char → Option (Option (List Char) × List Char)
  | '.' :: s => (digits? s).map fun (digits, rest) => (some digits, rest)
  | s => some (none, s)

/-- The exponent, if there is one. -/
def exponent? : List Char → Option (Option (Bool × List Char) × List Char)
  | 'e' :: s => signed? s
  | 'E' :: s => signed? s
  | s => some (none, s)
where
  signed? : List Char → Option (Option (Bool × List Char) × List Char)
    | '-' :: s => (digits? s).map fun (digits, rest) => (some (true, digits), rest)
    | '+' :: s => (digits? s).map fun (digits, rest) => (some (false, digits), rest)
    | s => (digits? s).map fun (digits, rest) => (some (false, digits), rest)

/-- A number without its sign. -/
def number? (negative : Bool) (s : List Char) : Option (NumberText × List Char) := do
  let (whole, s) ← whole? s
  let (fraction, s) ← fraction? s
  let (exponent, s) ← exponent? s
  some (⟨negative, whole, fraction, exponent⟩, s)

/-- Whether a character may stand between tokens. -/
def isSpace (c : Char) : Bool := c = ' ' || c = '\n' || c = '\t' || c = '\r'

/-- The first token of a text that does not start with a space. -/
def first? : List Char → Option (Token × List Char)
  | '[' :: s => some (.openList, s)
  | ']' :: s => some (.closeList, s)
  | '\x7b' :: s => some (.openObject, s)
  | '\x7d' :: s => some (.closeObject, s)
  | ':' :: s => some (.colon, s)
  | ',' :: s => some (.comma, s)
  | '"' :: s => (text? (s.length + 1) s).map fun (t, rest) => (.text t, rest)
  | '-' :: s => (number? true s).map fun (t, rest) => (.number t, rest)
  | 'n' :: 'u' :: 'l' :: 'l' :: s => some (.null, s)
  | 't' :: 'r' :: 'u' :: 'e' :: s => some (.bool true, s)
  | 'f' :: 'a' :: 'l' :: 's' :: 'e' :: s => some (.bool false, s)
  | s => (number? false s).map fun (t, rest) => (.number t, rest)

/-- The tokens of a text. The fuel bounds the number of characters. -/
def all? : Nat → List Char → Option (List Token)
  | _, [] => some []
  | 0, _ => none
  | fuel + 1, c :: s =>
    if isSpace c then all? fuel s
    else do
      let (t, rest) ← first? (c :: s)
      some (t :: (← all? fuel rest))

end Token

/-- The tokens of a text. -/
def tokens? (s : List Char) : Option (List Token) := Token.all? s.length s

end FieldCalculus.Json
