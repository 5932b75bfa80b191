import FieldCalculus.Document

/-!
Settings in layers. A layer is a tree; laid over another one it replaces leaves and lists
and merges tables. The keys at the top of a layer may be paths into the tree.
-/

namespace FieldCalculus.Settings

/-- The fields of a table; anything else counts as an empty one. -/
def table : Document → List (String × Document)
  | .object fields => fields
  | _ => []

/-- Replaces what is stored under a name, or adds it. -/
def replace (name : String) (value : Document) : List (String × Document) → List (String × Document)
  | [] => [(name, value)]
  | (n, v) :: rest => if n = name then (n, value) :: rest else (n, v) :: replace name value rest

mutual

/-- What a value becomes when another one is laid over it: tables are merged, field by
field. -/
def laidOver (incoming : Document) (below : Option Document) : Document :=
  match incoming with
  | .object fields => laidOverFields fields (below.getD (.object []))
  | d => d

/-- A value with fields laid over it. Only if there are any does it become a table. -/
def laidOverFields (incoming : List (String × Document)) (below : Document) : Document :=
  match incoming with
  | [] => below
  | (name, d) :: rest =>
    let fields := table below
    laidOverFields rest (.object (replace name (laidOver d (fields.lookup name)) fields))

end

/-- Lays a value over what is stored under a name. -/
def put (name : String) (value : Document) (tree : Document) : Document :=
  laidOverFields [(name, value)] tree

/-! ## Paths -/

/-- A step into a tree. -/
inductive Step where
  | child (name : String)
  | index (n : Int)
deriving DecidableEq

/-- The place in a list that an index means; negative ones count from the end. -/
def position (n : Int) (length : Nat) : Nat := if n < 0 then length - n.natAbs else n.toNat

/-- A list with another item at a place. It is filled up with nulls if it is too short. -/
def replaceAt (items : List Document) (i : Nat) (value : Document) : List Document :=
  (items ++ List.replicate (i + 1 - items.length) Document.null).set i value

/-- Lays a value over the place that steps lead to. On the way, what cannot be entered is
replaced by an empty table or list. -/
def putAt (value : Document) : List Step → Document → Document
  | [], _ => value
  | [.child name], d => put name value d
  | .child name :: more, d =>
    let fields := table d
    .object (replace name (putAt value more ((fields.lookup name).getD .null)) fields)
  | .index n :: more, d =>
    let items := match d with
      | .list items => items
      | _ => []
    let i := position n items.length
    .list (replaceAt items i (putAt value more ((items[i]?).getD .null)))

/-- Whether a character may be part of a name in a path. -/
def isNameChar (c : Char) : Bool := c.isAlphanum || c = ' ' || c = '_' || c = '-'

/-- A name in a path, and what follows. -/
def name? (s : List Char) : Option (String × List Char) :=
  let name := s.takeWhile isNameChar
  if name.isEmpty then none else some (String.ofList name, s.dropWhile isNameChar)

/-- An index between brackets, and what follows. -/
def index? (s : List Char) : Option (Int × List Char) :=
  let trimmed := s.dropWhile (· = ' ')
  let (negative, rest) := match trimmed with
    | '-' :: rest => (true, rest)
    | rest => (false, rest)
  let (digits, rest) := Word.spanDigits rest
  match rest.dropWhile (· = ' ') with
  | ']' :: rest =>
    let n : Int := Text.natOfDigits digits
    if digits.isEmpty then none else some (if negative then -n else n, rest)
  | _ => none

/-- The steps behind the first name of a path. The fuel bounds their number. -/
def steps? : Nat → List Char → Option (List Step)
  | _, [] => some []
  | 0, _ => none
  | fuel + 1, '.' :: rest => do
    let (name, rest) ← name? rest
    (steps? fuel rest).map (.child name :: ·)
  | fuel + 1, '[' :: rest => do
    let (n, rest) ← index? rest
    (steps? fuel rest).map (.index n :: ·)
  | _ + 1, _ => none

/-- The name and the steps that a key stands for; a key that is no path is one name. -/
def path (key : String) : String × List Step :=
  match name? key.toList with
  | none => (key, [])
  | some (name, rest) =>
    match steps? rest.length rest with
    | some steps => (name, steps)
    | none => (key, [])

/-- Lays a value over the place that a key stands for. -/
def putKey (key : String) (value : Document) (tree : Document) : Document :=
  let (name, steps) := path key
  putAt value (.child name :: steps) tree

/-- Lays a layer over a tree. -/
def layer (tree : Document) (entries : List (String × Document)) : Document :=
  entries.foldl (fun tree (key, value) => putKey key value tree) tree

end FieldCalculus.Settings
