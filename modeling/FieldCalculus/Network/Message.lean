import FieldCalculus.Wire.Decode

/-!
What a device sends to its neighbors after a round, and its wire form.
-/

namespace FieldCalculus

/-- The export of one round, with its sender and the time of sending. -/
structure Message where
  sender : DeviceId
  round : UInt64
  sentAt : Timestamp
  exported : Export
deriving Inhabited

namespace Message

open Wire

/-- The bytes of a message. -/
def encode (m : Message) : Bytes :=
  text m.sender.name ++ littleEndian 8 m.round.toNat ++ text (String.ofList m.sentAt.text) ++
    Wire.exported m.exported

/-- Reads the parts of a message in order. -/
def read (depth : Nat) : Decoder Message := do
  let sender ← readText
  let round ← readNat 8
  let sentAt ← match Timestamp.ofText? (← readText).toList with
    | some t => pure t
    | none => throw .invalidTimestamp
  return ⟨⟨sender⟩, UInt64.ofNat round, sentAt, ← readExport depth⟩

/-- The message that a string of bytes starts with. What follows it is ignored. -/
def decode (bytes : Bytes) : Except DecodeError Message :=
  match read (bytes.length + 1) ⟨bytes, 0⟩ with
  | .ok m _ => .ok m
  | .error e _ => .error e

/-- Equality of messages as programs see their values. -/
def equals (a b : Message) : Bool :=
  a.sender == b.sender && a.round == b.round && a.sentAt == b.sentAt && a.exported.equals b.exported

end Message

end FieldCalculus
