import FieldCalculus.Document
import FieldCalculus.Number.Layout

/-!
Documents printed in JSON, spread over lines or without any space.
-/

namespace FieldCalculus.Json

/-- How one character is written between quotes: the quote, the backslash and the control
characters are escaped, all others stand for themselves. -/
def escape (c : Char) : List Char :=
  if c = '"' then ['\\', '"']
  else if c = '\\' then ['\\', '\\']
  else if c = '\x08' then ['\\', 'b']
  else if c = '\x0c' then ['\\', 'f']
  else if c = '\n' then ['\\', 'n']
  else if c = '\r' then ['\\', 'r']
  else if c = '\t' then ['\\', 't']
  else if c.toNat < 0x20 then
    ['\\', 'u', '0', '0', Nat.digitChar (c.toNat / 16), Nat.digitChar (c.toNat % 16)]
  else [c]

/-- A text between quotes. -/
def quoted (s : String) : List Char := '"' :: s.toList.flatMap escape ++ ['"']

/-- A leaf. -/
def scalar : Scalar → List Char
  | .null => "null".toList
  | .bool b => (if b then "true" else "false").toList
  | .int n => (toString n).toList
  | .number n => (n.text .json).toList
  | .text s | .word s => quoted s

/-- How the parts of a container are set apart. -/
structure Spacing where
  /-- What stands before each item at a depth of nesting, and before the closing bracket. -/
  newline : Nat → List Char
  afterColon : List Char

/-- Every item on a line of its own, two columns further in than its container. -/
def Spacing.lines : Spacing := ⟨fun depth => '\n' :: List.replicate (2 * depth) ' ', [' ']⟩

/-- No space at all. -/
def Spacing.none : Spacing := ⟨fun _ => [], []⟩

mutual

/-- A document at a depth of nesting. -/
def printed (s : Spacing) (depth : Nat) : Document → List Char
  | .scalar v => scalar v
  | .list [] => ['[', ']']
  | .list items => '[' :: printedItems s (depth + 1) items ++ s.newline depth ++ [']']
  | .object [] => ['{', '}']
  | .object fields => '{' :: printedFields s (depth + 1) fields ++ s.newline depth ++ ['}']
  | .tagged d => printed s depth d
  | .unreadable => scalar .null

/-- Items with commas between them. -/
def printedItems (s : Spacing) (depth : Nat) : List Document → List Char
  | [] => []
  | [d] => s.newline depth ++ printed s depth d
  | d :: rest => s.newline depth ++ printed s depth d ++ ',' :: printedItems s depth rest

/-- Fields with commas between them. -/
def printedFields (s : Spacing) (depth : Nat) : List (String × Document) → List Char
  | [] => []
  | [(name, d)] => s.newline depth ++ quoted name ++ ':' :: s.afterColon ++ printed s depth d
  | (name, d) :: rest =>
    s.newline depth ++ quoted name ++ ':' :: s.afterColon ++ printed s depth d ++
      ',' :: printedFields s depth rest

end

/-- A document spread over lines. -/
def pretty (d : Document) : String := String.ofList (printed .lines 0 d)

/-- A document without spaces. -/
def compact (d : Document) : String := String.ofList (printed .none 0 d)

end FieldCalculus.Json
