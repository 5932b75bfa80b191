import FieldCalculus.Json.Token

/-!
Documents read from JSON. An object in which a name is not readable is not readable
itself, which matters only if something is asked of it.
-/

namespace FieldCalculus.Json

/-- A text, if it is readable. -/
def textDocument : Option (List Char) → Document
  | some s => .text (String.ofList s)
  | none => .unreadable

mutual

/-- The first value among tokens. The fuel bounds the depth and length of what is read. -/
def value? : Nat → List Token → Option (Document × List Token)
  | fuel + 1, t :: rest =>
    match t with
    | .null => some (.null, rest)
    | .bool b => some (.bool b, rest)
    | .number n => some (n.document, rest)
    | .text s => some (textDocument s, rest)
    | .openList =>
      match rest with
      | .closeList :: rest => some (.list [], rest)
      | rest => (items? fuel rest).map fun (items, rest) => (.list items, rest)
    | .openObject =>
      match rest with
      | .closeObject :: rest => some (.object [], rest)
      | rest => (fields? fuel rest).map fun (fields, rest) => (.ofFields fields, rest)
    | _ => none
  | _, _ => none

/-- At least one item, and the end of the list. -/
def items? : Nat → List Token → Option (List Document × List Token)
  | 0, _ => none
  | fuel + 1, tokens => do
    match ← value? fuel tokens with
    | (d, .comma :: rest) => (items? fuel rest).map fun (items, rest) => (d :: items, rest)
    | (d, .closeList :: rest) => some ([d], rest)
    | _ => none

/-- At least one field, and the end of the object. -/
def fields? : Nat → List Token → Option (List (Option String × Document) × List Token)
  | fuel + 1, .text name :: .colon :: tokens => do
    let name := name.map String.ofList
    match ← value? fuel tokens with
    | (d, .comma :: rest) => (fields? fuel rest).map fun (fields, rest) => ((name, d) :: fields, rest)
    | (d, .closeObject :: rest) => some ([(name, d)], rest)
    | _ => none
  | _, _ => none

end

/-- The document that a text is. -/
def document? (s : String) : Option Document := do
  let tokens ← tokens? s.toList
  match ← value? (2 * tokens.length) tokens with
  | (d, []) => some d
  | _ => none

end FieldCalculus.Json
