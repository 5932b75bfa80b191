import FieldCalculus.Toml.Scalar

/-!
Documents read from TOML. A table may be given in pieces, but each piece only once: by
its own header, by headers of tables below it, or by keys with points.
-/

namespace FieldCalculus.Toml

/-- How a table came about. -/
inductive Origin where
  /-- By the header of a table below it. -/
  | implied
  | header
  | points
deriving DecidableEq

/-- A document in the making. -/
inductive Node where
  | value (d : Document)
  | table (origin : Origin) (fields : List (String × Node))
  /-- Tables under one name, the last one first. -/
  | series (tables : List (List (String × Node)))

/-- The fields of a table in the making. -/
abbrev Fields := List (String × Node)

mutual

/-- The document that a node has become. -/
def Node.document : Node → Document
  | .value d => d
  | .table _ fields => .object (Node.fieldDocuments fields)
  | .series tables => .list (Node.tableDocuments tables).reverse

def Node.fieldDocuments : List (String × Node) → List (String × Document)
  | [] => []
  | (name, n) :: rest => (name, n.document) :: Node.fieldDocuments rest

def Node.tableDocuments : List (List (String × Node)) → List Document
  | [] => []
  | fields :: rest => .object (Node.fieldDocuments fields) :: Node.tableDocuments rest

end

namespace Fields

/-- Applies a change to what is stored under a name, which may be nothing. -/
def change (name : String) (f : Option Node → Option Node) : Fields → Option Fields
  | [] => (f none).map fun n => [(name, n)]
  | (m, n) :: rest =>
    if m = name then (f (some n)).map fun n => (m, n) :: rest
    else (change name f rest).map ((m, n) :: ·)

/-- Applies a change to the table that headers lead to. -/
def inside (f : Fields → Option Fields) : List String → Fields → Option Fields
  | [], fields => f fields
  | name :: more, fields =>
    fields.change name fun
      | none => (inside f more []).map (.table .implied)
      | some (.table origin below) => (inside f more below).map (.table origin)
      | some (.series (last :: before)) => (inside f more last).map fun t => .series (t :: before)
      | some _ => none

/-- Opens a table by its header. -/
def openTable : List String → Fields → Option Fields
  | [], _ => none
  | [name], fields =>
    fields.change name fun
      | none => some (.table .header [])
      | some (.table .implied below) => some (.table .header below)
      | some _ => none
  | name :: more, fields => inside (openTable more) [name] fields

/-- Opens one more table under a name. -/
def openSeries : List String → Fields → Option Fields
  | [], _ => none
  | [name], fields =>
    fields.change name fun
      | none => some (.series [[]])
      | some (.series tables) => some (.series ([] :: tables))
      | some _ => none
  | name :: more, fields => inside (openSeries more) [name] fields

/-- Stores a value under a key, which may have points. -/
def store (value : Document) : List String → Fields → Option Fields
  | [], _ => none
  | [name], fields =>
    fields.change name fun
      | none => some (.value value)
      | some _ => none
  | name :: more, fields =>
    fields.change name fun
      | none => (store value more []).map (.table .points)
      | some (.table .points below) => (store value more below).map (.table .points)
      | some _ => none

end Fields

/-! ## Reading -/

/-- What follows spaces, ends of lines and comments. The fuel bounds their number. -/
def skip? : Nat → List Char → Option (List Char)
  | 0, s => some s
  | fuel + 1, s =>
    match skipSpaces s with
    | '#' :: rest =>
      let after := rest.dropWhile isAllowed
      if after.isEmpty || (newline? after).isSome then skip? fuel after else none
    | s =>
      match newline? s with
      | some rest => skip? fuel rest
      | none => some s

/-- One name of a key. -/
def name? (s : List Char) : Option (String × List Char) :=
  match s with
  | '"' :: rest => (line? '"' (rest.length + 1) rest).map fun (n, rest) => (String.ofList n, rest)
  | '\'' :: rest => (line? '\'' (rest.length + 1) rest).map fun (n, rest) => (String.ofList n, rest)
  | s =>
    let isPart (c : Char) : Bool := c.isAlphanum || c = '_' || c = '-'
    let name := s.takeWhile isPart
    if name.isEmpty then none else some (String.ofList name, s.dropWhile isPart)

/-- The names of a key with points between them. The fuel bounds their number. -/
def key? : Nat → List Char → Option (List String × List Char)
  | 0, _ => none
  | fuel + 1, s => do
    let (name, rest) ← name? (skipSpaces s)
    match skipSpaces rest with
    | '.' :: rest => (key? fuel rest).map fun (names, rest) => (name :: names, rest)
    | rest => some ([name], rest)

mutual

/-- A value. -/
def value? : Nat → List Char → Option (Document × List Char)
  | 0, _ => none
  | fuel + 1, s =>
    match s with
    | '"' :: rest => (text? '"' rest).map fun (t, rest) => (.text (String.ofList t), rest)
    | '\'' :: rest => (text? '\'' rest).map fun (t, rest) => (.text (String.ofList t), rest)
    | '[' :: rest => (items? fuel rest).map fun (items, rest) => (.list items, rest)
    | '\x7b' :: rest => do
      match skipSpaces rest with
      | '\x7d' :: rest => some (.object [], rest)
      | rest =>
        let (fields, rest) ← inline? fuel [] rest
        some (.object (Node.fieldDocuments fields), rest)
    | s => (leaf? s).map fun (v, rest) => (.scalar v, rest)

/-- Items up to the closing bracket; a comma may stand behind the last one. -/
def items? : Nat → List Char → Option (List Document × List Char)
  | 0, _ => none
  | fuel + 1, s => do
    match ← skip? s.length s with
    | ']' :: rest => some ([], rest)
    | s =>
      let (d, rest) ← value? fuel s
      match ← skip? rest.length rest with
      | ',' :: rest => (items? fuel rest).map fun (items, rest) => (d :: items, rest)
      | ']' :: rest => some ([d], rest)
      | _ => none

/-- Fields on one line up to the closing bracket. -/
def inline? : Nat → Fields → List Char → Option (Fields × List Char)
  | 0, _, _ => none
  | fuel + 1, fields, s => do
    let (key, rest) ← key? s.length s
    let (d, rest) ← value? fuel (skipSpaces (← sign? '=' rest))
    let fields ← Fields.store d key fields
    match skipSpaces rest with
    | ',' :: rest => inline? fuel fields rest
    | '\x7d' :: rest => some (fields, rest)
    | _ => none

end

/-- What follows the rest of a line, on which only a comment may stand. -/
def lineEnd? (s : List Char) : Option (List Char) :=
  match skipSpaces s with
  | [] => some []
  | '#' :: rest =>
    let after := rest.dropWhile isAllowed
    if after.isEmpty then some [] else newline? after
  | s => newline? s

/-- Reads lines into a document in the making; `place` is the table that was opened last.
The fuel bounds their number. -/
def document?.go : Nat → List String → Fields → List Char → Option Fields
  | 0, _, _, _ => none
  | fuel + 1, place, fields, s => do
    match ← skip? (s.length + 1) s with
    | [] => some fields
    | '[' :: '[' :: rest =>
      let (key, rest) ← key? rest.length rest
      let rest ← lineEnd? (← sign? ']' (← sign? ']' rest))
      go fuel key (← Fields.openSeries key fields) rest
    | '[' :: rest =>
      let (key, rest) ← key? rest.length rest
      let rest ← lineEnd? (← sign? ']' rest)
      go fuel key (← Fields.openTable key fields) rest
    | s =>
      let (key, rest) ← key? s.length s
      let (d, rest) ← value? (2 * s.length) (skipSpaces (← sign? '=' rest))
      let rest ← lineEnd? rest
      go fuel place (← Fields.inside (Fields.store d key) place fields) rest

/-- The document that a text is. -/
def document? (s : String) : Option Document :=
  (document?.go (s.length + 1) [] [] s.toList).map fun fields => .object (Node.fieldDocuments fields)

end FieldCalculus.Toml
