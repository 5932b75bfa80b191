import FieldCalculus.Document
import FieldCalculus.Yaml.Scalar

/-!
Documents read from YAML. Outside of brackets a node belongs to the nearest container
that starts in a smaller column; a text is a key if a colon follows on the same line.
Only streams of at most one document are read.
-/

namespace FieldCalculus.Yaml

open Text

/-- What is left to read, and the nodes that have names so far. -/
structure Progress where
  rest : List Cell
  anchors : List (String × Document)

/-- What may stand before a node: a name for it and a tag. -/
structure Properties where
  anchor : Option String
  tag : Option String

namespace Properties

def none : Properties := ⟨.none, .none⟩

def isNone (p : Properties) : Bool := p.anchor.isNone && p.tag.isNone

/-- Properties from two places, if neither is given twice. -/
def merge? (p q : Properties) : Option Properties :=
  if (p.anchor.isSome && q.anchor.isSome) || (p.tag.isSome && q.tag.isSome) then .none
  else some ⟨p.anchor.or q.anchor, p.tag.or q.tag⟩

/-- The start of the tags for the usual types. -/
def commonTag : String := "tag:yaml.org,2002:"

/-- Whether a tag changes which choice a node is. On a container only private tags do. -/
def marks (tag : String) (leaf : Bool) : Bool :=
  (tag.startsWith "!" && tag != "!") ||
    (leaf && ["bool", "int", "float", "null"].any fun type => tag = commonTag ++ type)

/-- Gives a node its properties. -/
def apply (p : Properties) (d : Document) (anchors : List (String × Document)) :
    Document × List (String × Document) :=
  let leaf := match d with
    | .scalar _ => true
    | _ => false
  let d := if p.tag.any fun tag => marks tag leaf then .tagged d else d
  (d, match p.anchor with
    | some name => (name, d) :: anchors
    | .none => anchors)

/-- A name behind its sign. -/
def name? (cs : List Cell) : Option (String × List Cell) :=
  let isPart (c : Cell) : Bool := c.char.isAlphanum || c.char = '_' || c.char = '-'
  let name := cs.takeWhile isPart
  let rest := cs.dropWhile isPart
  let ends := ['?', ':', ',', ']', '\x7d', '%', '@', '\x60']
  if name.isEmpty || !rest.head?.all fun c => isBlank c.char || ends.contains c.char then .none
  else some (String.ofList (name.map Cell.char), rest)

/-- A tag behind its exclamation mark. -/
def tag? (flow : Bool) (cs : List Cell) : Option (String × List Cell) := do
  let isPart (c : Cell) : Bool := !isBlank c.char && !flowIndicators.contains c.char
  let (tag, rest) ← match cs with
    | c :: cs =>
      if c.char = '<' then
        let tag := cs.takeWhile fun c => c.char != '>' && !isBlank c.char
        let rest := cs.drop tag.length
        if rest.head?.any fun c => c.char = '>' then
          some (String.ofList (tag.map Cell.char), rest.drop 1)
        else .none
      else
        let text := String.ofList (((c :: cs).takeWhile isPart).map Cell.char)
        let rest := (c :: cs).dropWhile isPart
        if text.startsWith "!" then some (commonTag ++ (text.drop 1).toString, rest)
        else if text.contains '!' then .none
        else some ("!" ++ text, rest)
    | [] => some ("!", [])
  if blankNext rest || (flow && rest.head?.any fun c => c.char = ',') then some (tag, rest) else .none

/-- Properties, with `between` skipping what may stand behind each. The fuel bounds their
number. -/
def read? (flow : Bool) (between : List Cell → List Cell) :
    Nat → Properties → List Cell → Option (Properties × List Cell)
  | 0, p, cs => some (p, cs)
  | _, p, [] => some (p, [])
  | fuel + 1, p, c :: rest =>
    if c.char = '&' then do
      let (name, rest) ← name? rest
      read? flow between fuel (← p.merge? ⟨some name, .none⟩) (between rest)
    else if c.char = '!' then do
      let (tag, rest) ← tag? flow rest
      read? flow between fuel (← p.merge? ⟨.none, some tag⟩) (between rest)
    else some (p, c :: rest)

end Properties

/-- Whether a sign stands here with nothing but a blank behind it. -/
def isSign (sign : Char) : List Cell → Bool
  | c :: rest => c.char = sign && blankNext rest
  | [] => false

/-- What follows blanks and tabs on the same line. -/
def skipOnLine (cs : List Cell) : List Cell := cs.dropWhile fun c => c.char = ' ' || c.char = '\t'

/-- What follows a node: blanks are skipped, tabs too on the line where it ended. -/
def skipAfter (cs : List Cell) : List Cell :=
  skip (fun line => cs.head?.any fun c => c.line = line) cs

/-- What follows blanks inside of brackets. -/
def skipInside (cs : List Cell) : List Cell := skip (fun _ => true) cs

/-- Whether a plain text can start here. -/
def startsPlain (flow : Bool) (cs : List Cell) : Bool :=
  match cs with
  | [] => false
  | c :: rest =>
    if c.char = '-' || (!flow && (c.char = '?' || c.char = ':')) then !blankNext rest
    else !isBlank c.char && c.char != '?' && c.char != ':' && !startIndicators.contains c.char

/-- How many characters a key without a question mark may have. -/
def longestKey : Nat := 1024

/-- Whether the colon at `colon` makes a key of what starts at `start`: it has to stand on
the same line, and not too far away. -/
def isKeyColon (start colon : Cell) : Bool :=
  colon.char = ':' && colon.line = start.line && colon.column ≤ start.column + longestKey

/-- The word that stands for nothing. -/
def emptyNode : Document := .scalar (.word "")

/-! ## Inside of brackets -/

mutual

/-- A node inside of brackets. -/
def flow? : Nat → Progress → Option (Document × Progress)
  | 0, _ => none
  | fuel + 1, p => do
    if atEnd p.rest then none
    let (properties, cs) ← Properties.read? true skipInside 3 .none p.rest
    let p := { p with rest := cs }
    let (d, p) ← flowContent? fuel properties.isNone p
    let (d, anchors) := properties.apply d p.anchors
    some (d, { p with anchors := anchors })

/-- A node inside of brackets behind its properties, which must have some content if it
is bare. -/
def flowContent? : Nat → Bool → Progress → Option (Document × Progress)
  | 0, _, _ => none
  | fuel + 1, isBare, p =>
    match p.rest with
    | [] => none
    | c :: rest =>
      if c.char = '*' then
        if isBare then do
          let (name, rest) ← Properties.name? rest
          (p.anchors.lookup name).map fun d => (d, { p with rest := rest })
        else none
      else if c.char = '[' then
        (flowItems? fuel { p with rest := skipInside rest }).map fun (items, p) => (.list items, p)
      else if c.char = '\x7b' then
        (flowFields? fuel { p with rest := skipInside rest }).map fun (fields, p) =>
          (.ofFields fields, p)
      else if c.char = '"' || c.char = '\'' then
        (quoted? c.char (rest.length + 1) rest).map fun (s, rest) =>
          (.text (String.ofList s), { p with rest := rest })
      else if startsPlain true p.rest then
        (plain? true 0 p.rest.length p.rest).map fun (s, rest) =>
          (.scalar (.word (String.ofList s)), { p with rest := rest })
      else if isBare then none
      else some (emptyNode, p)

/-- A value inside of brackets behind its colon, if it has one. -/
def flowValue? : Nat → Progress → Option (Document × Progress)
  | 0, _ => none
  | fuel + 1, p =>
    match p.rest with
    | c :: rest =>
      if c.char = ':' then
        let p := { p with rest := skipInside rest }
        if p.rest.head?.any fun c => [',', ']', '\x7d'].contains c.char then some (emptyNode, p)
        else flow? fuel p
      else some (emptyNode, p)
    | [] => none

/-- A key and its value behind a question mark. -/
def flowAsked? : Nat → Progress → Option ((Option String × Document) × Progress)
  | 0, _ => none
  | fuel + 1, p => do
    let p := { p with rest := skipInside (p.rest.drop 1) }
    let (key, p) ←
      if p.rest.head?.any fun c => [',', ']', '\x7d', ':'].contains c.char then some (emptyNode, p)
      else flow? fuel p
    let (value, p) ← flowValue? fuel { p with rest := skipInside p.rest }
    some ((key.text?, value), p)

/-- The items of a list up to its closing bracket. An item with a colon is an object with
one field. -/
def flowItems? : Nat → Progress → Option (List Document × Progress)
  | 0, _ => none
  | fuel + 1, p =>
    match p.rest with
    | [] => none
    | c :: rest =>
      if c.char = ']' then some ([], { p with rest := rest })
      else do
        let (d, p) ←
          if isSign '?' p.rest then
            (flowAsked? fuel p).map fun (field, p) => (Document.ofFields [field], p)
          else do
            let (key, p) ← flow? fuel p
            let after := skipInside p.rest
            let p := { p with rest := after }
            if after.head?.any (isKeyColon c) then
              (flowValue? fuel p).map fun (value, p) => (Document.ofFields [(key.text?, value)], p)
            else some (key, p)
        match skipInside p.rest with
        | e :: rest =>
          if e.char = ',' then
            (flowItems? fuel { p with rest := skipInside rest }).map fun (items, p) => (d :: items, p)
          else if e.char = ']' then some ([d], { p with rest := rest })
          else none
        | [] => none

/-- The fields of an object up to its closing bracket. A key without a colon has an empty
value. -/
def flowFields? : Nat → Progress → Option (List (Option String × Document) × Progress)
  | 0, _ => none
  | fuel + 1, p =>
    match p.rest with
    | [] => none
    | c :: rest =>
      if c.char = '\x7d' then some ([], { p with rest := rest })
      else do
        let (field, p) ←
          if isSign '?' p.rest then flowAsked? fuel p
          else do
            let (key, p) ← flow? fuel p
            let p := { p with rest := skipInside p.rest }
            if p.rest.head?.any fun d => d.char = ':' && !isKeyColon c d then none
            (flowValue? fuel p).map fun (value, p) => ((key.text?, value), p)
        match skipInside p.rest with
        | e :: rest =>
          if e.char = ',' then
            (flowFields? fuel { p with rest := skipInside rest }).map fun (fields, p) =>
              (field :: fields, p)
          else if e.char = '\x7d' then some ([field], { p with rest := rest })
          else none
        | [] => none

end

/-! ## Outside of brackets -/

/-- What starts on a line: properties and, unless the line ends behind them, a node. -/
structure Lead where
  properties : Properties
  content : Option Document
  progress : Progress

/-- Reads what starts on a line, in a container at column `parent`. -/
def lead? (fuel : Nat) (parent : Option Nat) (p : Progress) : Option Lead := do
  let (properties, cs) ← Properties.read? false skipOnLine 3 .none p.rest
  let p := { p with rest := cs }
  let leaf (d : Document) (rest : List Cell) : Option Lead :=
    some ⟨properties, some d, { p with rest := rest }⟩
  let lineEnds : Bool := cs.head?.all fun c => isBreak c.char || c.char = '#'
  if lineEnds && !properties.isNone then some ⟨properties, none, p⟩
  else
    match cs with
    | [] => none
    | c :: rest =>
      if c.char = '|' || c.char = '>' then do
        let (s, rest) ← block? (c.char = '|') parent rest
        leaf (.text (String.ofList s)) rest
      else if c.char = '"' || c.char = '\'' then do
        let (s, rest) ← quoted? c.char (rest.length + 1) rest
        leaf (.text (String.ofList s)) rest
      else if c.char = '[' || c.char = '\x7b' || c.char = '*' then do
        let (d, p) ← flowContent? fuel properties.isNone p
        some ⟨properties, some d, p⟩
      else if startsPlain false cs then do
        let (s, rest) ← plain? false (parent.elim 0 (· + 1)) cs.length cs
        leaf (.scalar (.word (String.ofList s))) rest
      else if isSign ':' cs && !properties.isNone then leaf emptyNode cs
      else none

/-- What follows the colon behind a key that starts at `start`, if there is one. -/
def afterColon? (start : Cell) (cs : List Cell) : Option (List Cell) :=
  let cs := skipOnLine cs
  if isSign ':' cs && cs.head?.any (isKeyColon start) then some (cs.drop 1) else none

mutual

/-- A node behind a sign, a colon or nothing, in a container at column `parent`. Its first
token may be a key only if `keys` holds or it stands on a later line than `line`.
`loose` allows a list at the column of the container itself. -/
def node? : Nat → Option Nat → Bool → Bool → Nat → Properties → Progress → Option (Document × Progress)
  | 0, _, _, _, _, _, _ => none
  | fuel + 1, parent, loose, keys, line, outer, p => do
    let cs := skip (fun l => !keys && l = line) p.rest
    let p := { p with rest := cs }
    let finish (properties : Properties) (d : Document) (p : Progress) :
        Option (Document × Progress) :=
      let (d, anchors) := properties.apply d p.anchors
      some (d, { p with anchors := anchors })
    match cs with
    | [] => finish outer emptyNode p
    | c :: _ =>
      let keys := keys || c.line != line
      let inside := parent.all (· < c.column)
      if atEnd cs then finish outer emptyNode p
      else if isSign '-' cs && (inside || (loose && parent = some c.column)) then
        if keys then do
          let (items, p) ← items? fuel (!inside) c.column p
          finish outer (.list items) p
        else none
      else if !inside then finish outer emptyNode p
      else if isSign '?' cs then
        if keys then do
          let (fields, p) ← fields? fuel c.column p
          finish outer (.ofFields fields) p
        else none
      else do
        let lead ← lead? fuel parent p
        match lead.content with
        | none =>
          node? fuel parent loose true c.line (← outer.merge? lead.properties) lead.progress
        | some d =>
          match afterColon? c lead.progress.rest with
          | some _ =>
            if keys then do
              let (fields, p) ← fields? fuel c.column p
              finish outer (.ofFields fields) p
            else none
          | none => finish (← outer.merge? lead.properties) d lead.progress

/-- The items of a list whose dashes stand in a column. A loose list ends where there is
no dash in the column any more. -/
def items? : Nat → Bool → Nat → Progress → Option (List Document × Progress)
  | 0, _, _, _ => none
  | fuel + 1, loose, column, p => do
    let line := (p.rest.head?.map Cell.line).getD 0
    let (d, p) ← node? fuel (some column) false true line .none { p with rest := p.rest.drop 1 }
    let cs := skipAfter p.rest
    let p := { p with rest := cs }
    match cs with
    | [] => some ([d], p)
    | c :: _ =>
      if atEnd cs || c.column < column then some ([d], p)
      else if c.column = column && isSign '-' cs then
        (items? fuel loose column p).map fun (items, p) => (d :: items, p)
      else if c.column = column && loose then some ([d], p)
      else none

/-- The fields of an object whose keys stand in a column. -/
def fields? : Nat → Nat → Progress → Option (List (Option String × Document) × Progress)
  | 0, _, _ => none
  | fuel + 1, column, p => do
    let (field, p) ← field? fuel column p
    let cs := skipAfter p.rest
    let p := { p with rest := cs }
    match cs with
    | [] => some ([field], p)
    | c :: _ =>
      if atEnd cs || c.column < column then some ([field], p)
      else if c.column = column then
        (fields? fuel column p).map fun (fields, p) => (field :: fields, p)
      else none

/-- One field whose key stands in a column. -/
def field? : Nat → Nat → Progress → Option ((Option String × Document) × Progress)
  | 0, _, _ => none
  | fuel + 1, column, p => do
    let line := (p.rest.head?.map Cell.line).getD 0
    if isSign '?' p.rest then
      let (key, p) ← node? fuel (some column) true true line .none { p with rest := p.rest.drop 1 }
      let cs := skipAfter p.rest
      let p := { p with rest := cs }
      match cs with
      | c :: rest =>
        if c.column = column && isSign ':' cs then do
          let (value, p) ← node? fuel (some column) true true c.line .none { p with rest := rest }
          some ((key.text?, value), p)
        else some ((key.text?, emptyNode), p)
      | [] => some ((key.text?, emptyNode), p)
    else if isSign '-' p.rest then none
    else do
      let lead ← lead? fuel (some column) p
      let key ← lead.content
      let rest ← afterColon? (← p.rest.head?) lead.progress.rest
      let (key, anchors) := lead.properties.apply key lead.progress.anchors
      let (value, p) ← node? fuel (some column) true false line .none ⟨rest, anchors⟩
      some ((key.text?, value), p)

end

/-! ## Streams -/

/-- Whether a line is a directive that is known. -/
def isDirective (line : List Char) : Bool :=
  let words := ((String.ofList line).splitOn " ").filter (· != "")
  match words with
  | "%YAML" :: version :: rest =>
    (version = "1.1" || version = "1.2") && rest.head?.all fun w => w.startsWith "#"
  | "%TAG" :: _ :: _ :: _ => true
  | _ => false

/-- What follows directives, and whether there were some. The fuel bounds their number. -/
def directives? : Nat → Bool → List Cell → Option (Bool × List Cell)
  | 0, _, _ => none
  | fuel + 1, seen, cs =>
    let cs := skip (fun _ => false) cs
    if cs.head?.any fun c => c.char = '%' && c.column = 0 then
      let line := cs.takeWhile fun c => !isBreak c.char
      if isDirective (line.map Cell.char) then directives? fuel true (cs.drop line.length) else none
    else some (seen, cs)

/-- Whether nothing follows but signs that the document has ended. The fuel bounds their
number. -/
def isOver : Nat → List Cell → Bool
  | 0, _ => false
  | fuel + 1, cs =>
    let cs := skipAfter cs
    cs.isEmpty || (isMarker '.' cs && isOver fuel (cs.drop 3))

/-- The document in a text: `none` if the text is malformed or holds several documents,
`some none` if it holds no document. -/
def document? (s : String) : Option (Option Document) := do
  let chars := match s.toList with
    | '\ufeff' :: rest => rest
    | cs => cs
  if !chars.all isAllowed then none
  let cs := cells 0 0 (normalized chars)
  let size := cs.length + 1
  let (directed, cs) ← directives? size false cs
  match cs with
  | [] => if directed then none else some none
  | c :: _ =>
    let marked := isMarker '-' cs
    if directed && !marked then none
    let start : Progress := ⟨if marked then cs.drop 3 else cs, []⟩
    let (d, p) ← node? (4 * size) none false (!marked) c.line .none start
    if isOver size p.rest then some (some d) else none

end FieldCalculus.Yaml
