import FieldCalculus.Export
import FieldCalculus.Timestamp

/-!
The wire layout. Numbers are little endian and of fixed width; a text is its length
in bytes and then its bytes; a list is its length and then its items; a choice is the
place of its constructor in the declaration and then the fields. The layout needs no
separators: each part tells where it ends.
-/

namespace FieldCalculus

/-- A string of bytes. -/
abbrev Bytes := List UInt8

namespace Wire

/-- A number in `width` bytes, least significant first. -/
def littleEndian : Nat → Nat → Bytes
  | 0, _ => []
  | width + 1, n => UInt8.ofNat (n % 256) :: littleEndian width (n / 256)

/-- The place of a constructor. -/
def tag (n : Nat) : Bytes := littleEndian 4 n

/-- The number of bytes or items that follow. -/
def count (n : Nat) : Bytes := littleEndian 8 n

def bool (b : Bool) : Bytes := [if b then 1 else 0]

def text (s : String) : Bytes :=
  let bytes := s.toUTF8.toList
  count bytes.length ++ bytes

def texts (ss : List String) : Bytes := count ss.length ++ ss.flatMap text

def number (n : Number) : Bytes := littleEndian 8 n.bits.toNat

def builtin (b : Builtin) : Bytes := tag (Builtin.all.idxOf b)

mutual

def expr : Expr → Bytes
  | .literal v => tag 0 ++ value v
  | .var name => tag 1 ++ text name
  | .sense name => tag 2 ++ text name
  | .neighborSense name => tag 3 ++ text name
  | .selfId => tag 4
  | .lambda code params body => tag 5 ++ text code.text ++ texts params ++ expr body
  | .apply function args => tag 6 ++ expr function ++ count args.length ++ exprs args
  | .letIn name v body => tag 7 ++ text name ++ expr v ++ expr body
  | .branch condition thenSide elseSide =>
    tag 8 ++ expr condition ++ expr thenSide ++ expr elseSide
  | .rep init var update => tag 9 ++ expr init ++ text var ++ expr update
  | .nbr body => tag 10 ++ expr body
  | .neighborFold default accumulator generator includeSelf =>
    tag 11 ++ expr default ++ expr accumulator ++ expr generator ++ bool includeSelf

/-- Programs one after the other. -/
def exprs : List Expr → Bytes
  | [] => []
  | e :: rest => expr e ++ exprs rest

def value : Value → Bytes
  | .unit => tag 0
  | .bool b => tag 1 ++ bool b
  | .number n => tag 2 ++ number n
  | .text s => tag 3 ++ text s
  | .tuple items => tag 4 ++ count items.length ++ values items
  | .builtin b => tag 5 ++ tag 0 ++ builtin b
  | .closure code params body env =>
    tag 5 ++ tag 1 ++ text code.text ++ texts params ++ expr body ++
      count env.length ++ bindings env

/-- Values one after the other. -/
def values : List Value → Bytes
  | [] => []
  | v :: rest => value v ++ values rest

/-- Names and values one after the other. -/
def bindings : List (String × Value) → Bytes
  | [] => []
  | (name, v) :: rest => text name ++ value v ++ bindings rest

end

def slot : Slot → Bytes
  | .nbr i => tag 0 ++ littleEndian 4 i.toNat
  | .rep i => tag 1 ++ littleEndian 4 i.toNat
  | .foldHood i => tag 2 ++ littleEndian 4 i.toNat
  | .branch i taken => tag 3 ++ littleEndian 4 i.toNat ++ bool taken
  | .funCall i code => tag 4 ++ littleEndian 4 i.toNat ++ text code.text

def path (p : Path) : Bytes := count p.length ++ p.flatMap slot

def exported (e : Export) : Bytes :=
  count e.size ++ e.toList.flatMap fun (p, v) => path p ++ value v

end Wire

end FieldCalculus
