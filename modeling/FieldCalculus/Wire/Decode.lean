import FieldCalculus.Wire.Encode

/-!
Reading the wire layout. Parts are read in order, so the first fault decides the
error. The reader counts the values, programs and slots that it begins: what a sender
declares as a length costs nothing until the items are there.
-/

namespace FieldCalculus.Wire

/-- Why bytes could not be read. -/
inductive DecodeError where
  /-- The input ends inside a part. -/
  | unexpectedEnd
  | invalidText
  | invalidBool
  /-- No constructor has this place. -/
  | invalidTag
  | invalidTimestamp
deriving DecidableEq

/-- What is left to read, and how many nodes were begun so far. -/
structure Cursor where
  rest : Bytes
  nodes : Nat

/-- A step of reading, which moves the cursor also when it fails. -/
abbrev Decoder := EStateM DecodeError Cursor

/-- The next `n` bytes. -/
def takeBytes (n : Nat) : Decoder Bytes := fun c =>
  let taken := c.rest.take n
  if taken.length < n then .error .unexpectedEnd c
  else .ok taken { c with rest := c.rest.drop n }

/-- The number whose bytes these are, least significant first. -/
def ofLittleEndian : Bytes → Nat
  | [] => 0
  | b :: rest => b.toNat + 256 * ofLittleEndian rest

/-- A number of `width` bytes. -/
def readNat (width : Nat) : Decoder Nat := do return ofLittleEndian (← takeBytes width)

def readBool : Decoder Bool := do
  match ← readNat 1 with
  | 0 => return false
  | 1 => return true
  | _ => throw .invalidBool

def readText : Decoder String := do
  let bytes ← takeBytes (← readNat 8)
  match String.fromUTF8? ⟨bytes.toArray⟩ with
  | some s => return s
  | none => throw .invalidText

/-- As many items as declared; reading stops at the first that fails. -/
def readMany {α : Type} (item : Decoder α) : Nat → Decoder (List α)
  | 0 => return []
  | n + 1 => do
    let a ← item
    return a :: (← readMany item n)

/-- A list with its length in front. -/
def readList {α : Type} (item : Decoder α) : Decoder (List α) := do
  readMany item (← readNat 8)

/-- The constructor tag of a node, which is counted as begun. -/
def readNode : Decoder Nat := fun c => readNat 4 { c with nodes := c.nodes + 1 }

def readBuiltin : Decoder Builtin := do
  match Builtin.all[← readNat 4]? with
  | some b => return b
  | none => throw .invalidTag

mutual

/-- A program. Nesting cannot be deeper than there are bytes, which bounds the depth. -/
def readExpr : Nat → Decoder Expr
  | 0 => throw .unexpectedEnd
  | depth + 1 => do
    match ← readNode with
    | 0 => return .literal (← readValue depth)
    | 1 => return .var (← readText)
    | 2 => return .sense (← readText)
    | 3 => return .neighborSense (← readText)
    | 4 => return .selfId
    | 5 =>
      let code ← readText
      let params ← readList readText
      return .lambda ⟨code⟩ params (← readExpr depth)
    | 6 =>
      let function ← readExpr depth
      return .apply function (← readList (readExpr depth))
    | 7 =>
      let name ← readText
      let value ← readExpr depth
      return .letIn name value (← readExpr depth)
    | 8 =>
      let condition ← readExpr depth
      let thenSide ← readExpr depth
      return .branch condition thenSide (← readExpr depth)
    | 9 =>
      let init ← readExpr depth
      let var ← readText
      return .rep init var (← readExpr depth)
    | 10 => return .nbr (← readExpr depth)
    | 11 =>
      let default ← readExpr depth
      let accumulator ← readExpr depth
      let generator ← readExpr depth
      return .neighborFold default accumulator generator (← readBool)
    | _ => throw .invalidTag

/-- A value. -/
def readValue : Nat → Decoder Value
  | 0 => throw .unexpectedEnd
  | depth + 1 => do
    match ← readNode with
    | 0 => return .unit
    | 1 => return .bool (← readBool)
    | 2 => return .number ⟨UInt64.ofNat (← readNat 8)⟩
    | 3 => return .text (← readText)
    | 4 => return .tuple (← readList (readValue depth))
    | 5 =>
      match ← readNat 4 with
      | 0 => return .builtin (← readBuiltin)
      | 1 =>
        let code ← readText
        let params ← readList readText
        let body ← readExpr depth
        let env ← readList do
          let name ← readText
          return (name, ← readValue depth)
        return .closure ⟨code⟩ params body (Entries.insertAll [] env)
      | _ => throw .invalidTag
    | _ => throw .invalidTag

end

def readIndex : Decoder UInt32 := do return UInt32.ofNat (← readNat 4)

def readSlot : Decoder Slot := do
  match ← readNode with
  | 0 => return .nbr (← readIndex)
  | 1 => return .rep (← readIndex)
  | 2 => return .foldHood (← readIndex)
  | 3 =>
    let index ← readIndex
    return .branch index (← readBool)
  | 4 =>
    let index ← readIndex
    return .funCall index ⟨← readText⟩
  | _ => throw .invalidTag

/-- An export; of two entries at one path the later stays. -/
def readExport (depth : Nat) : Decoder Export := do
  let entries ← readList do
    let path ← readList readSlot
    return (path, ← readValue depth)
  return ⟨Dict.ofList entries⟩

end FieldCalculus.Wire
