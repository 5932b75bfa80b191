import FieldCalculus.Expr
import FieldCalculus.Settings.Tree
import FieldCalculus.Number.Layout

/-!
Values of settings. Settings from variables are texts, so a text is accepted where a
number or a truth value is meant, and the other way round.
-/

namespace FieldCalculus.Settings

open Text

/-! ## Bare words -/

/-- A whole number that a word stands for: in decimal, or in base sixteen or eight behind
a mark. -/
def wordInteger? (word : String) : Option Int :=
  let based (base : Nat) (s : List Char) : Option Int :=
    match s with
    | '-' :: s => (Word.natInBase? base s).map fun n => -(n : Int)
    | '+' :: s => (Word.natInBase? base s).map fun n => (n : Int)
    | s => (Word.natInBase? base s).map fun n => (n : Int)
  let n := match word.toList with
    | '0' :: 'x' :: s => based 16 s
    | '0' :: 'o' :: s => based 8 s
    | '+' :: s => Word.signedNat? s
    | s => Word.signedNat? s
  n.filter Word.fitsSigned

/-- Words for infinity and for no number that settings have no value for. -/
def pointWords : List String :=
  [".inf", ".Inf", ".INF", "+.inf", "+.Inf", "+.INF", "-.inf", "-.Inf", "-.INF", ".nan", ".NAN"]

/-- What a word stands for, if there is a value for it. -/
def wordValue? (word : String) : Option Scalar :=
  if ["", "~", "null"].contains word then some .null
  else if word = "true" then some (.bool true)
  else if word = "false" then some (.bool false)
  else if pointWords.contains word then none
  else match wordInteger? word with
    | some n => some (.int n)
    | none =>
      match Word.float? word.toList with
      | some n => some (.number n)
      | none => some (.text word)

mutual

/-- A document without words and marks, if all of it is readable. -/
def resolved? : Document → Option Document
  | .scalar (.word s) => (wordValue? s).map .scalar
  | .scalar (.int n) => some (if Word.fitsSigned n then .int n else .number (.ofInt n))
  | .scalar s => some (.scalar s)
  | .list items => (resolvedItems? items).map .list
  | .object fields => (resolvedFields? fields).map .object
  | .tagged d => resolved? d
  | .unreadable => none

def resolvedItems? : List Document → Option (List Document)
  | [] => some []
  | d :: rest => do some ((← resolved? d) :: (← resolvedItems? rest))

/-- Fields without words; of two with one name the later stays. -/
def resolvedFields? : List (String × Document) → Option (List (String × Document))
  | [] => some []
  | (name, d) :: rest => do
    let d ← resolved? d
    let rest ← resolvedFields? rest
    some (if (rest.lookup name).isSome then rest else (name, d) :: rest)

end

/-! ## Conversions -/

/-- The text of a leaf that is not null. -/
def text? : Document → Option String
  | .scalar (.text s) => some s
  | .scalar (.bool b) => some (toString b)
  | .scalar (.int n) => some (toString n)
  | .scalar (.number n) => some (n.text .display)
  | _ => none

/-- The whole number nearest to a number, a half away from zero; what lies outside of 64
bits becomes their nearest end. -/
def rounded (n : Number) : Nat :=
  let greatest := UInt64.size - 1
  if n.isNaN || n.isNegative then 0
  else if n.isInfinite then greatest
  else min ((2 * n.units + Number.unitsPerOne) / (2 * Number.unitsPerOne)) greatest

/-- A natural number in a text, or a word for one or zero. -/
def natOfText? (s : String) : Option Nat :=
  let s := s.toLower
  if ["true", "on", "yes"].contains s then some 1
  else if ["false", "off", "no"].contains s then some 0
  else
    let digits := match s.toList with
      | '+' :: rest => rest
      | s => s
    Word.signedNat?.digits? digits

/-- The natural number that a leaf stands for, if it is below a bound. -/
def nat? (bound : Nat) (d : Document) : Option Nat :=
  let n : Option Nat :=
    match d with
    | .scalar (.int n) => if n < 0 then none else some n.toNat
    | .scalar (.text s) => natOfText? s
    | .scalar (.bool b) => some b.toNat
    | .scalar (.number n) => some (rounded n)
    | _ => none
  n.filter (· < bound)

/-- The value of a sensor: a truth value, a number or a text. -/
def sensor? : Document → Option Value
  | .scalar (.bool b) => some (.bool b)
  | .scalar (.int n) => some (.number (.ofInt n))
  | .scalar (.number n) => some (.number n)
  | .scalar (.text s) => some (.text s)
  | _ => none

/-- What `read` makes of a value that may be missing or null. -/
def optional? {α : Type} (read : Document → Option α) : Option Document → Option (Option α)
  | none | some (.scalar .null) => some none
  | some d => (read d).map some

end FieldCalculus.Settings
