import FieldCalculus.Yaml.Style

/-!
Characters at their places. In YAML the column in which something starts decides what it
belongs to, so reading works on characters that know their line and column.
-/

namespace FieldCalculus.Yaml

/-- A character with its line and column, both counted from zero. -/
structure Cell where
  char : Char
  line : Nat
  column : Nat
deriving DecidableEq

/-- The characters of a text, which starts at a given place. -/
def cells (line column : Nat) : List Char → List Cell
  | [] => []
  | c :: rest =>
    ⟨c, line, column⟩ :: if isBreak c then cells (line + 1) 0 rest else cells line (column + 1) rest

/-- Whether there is nothing more, or a blank. -/
def blankNext (cs : List Cell) : Bool := cs.head?.all fun c => isBlank c.char

/-- The characters of a text with one sign for all common ends of lines. -/
def normalized : List Char → List Char
  | '\r' :: '\n' :: rest => '\n' :: normalized rest
  | c :: rest => (if c = '\r' || c = '\x85' then '\n' else c) :: normalized rest
  | [] => []

/-- Whether a character may occur at all. -/
def isAllowed (c : Char) : Bool := isPrintable c || c = '\t' || c = '\ufeff' || isBreak c

/-- Whether three dashes or three dots stand alone at the start of a line. -/
def isMarker (mark : Char) : List Cell → Bool
  | a :: b :: c :: rest =>
    a.column = 0 && a.char = mark && b.char = mark && c.char = mark && blankNext rest
  | _ => false

/-- Whether a document ends here. -/
def atEnd (cs : List Cell) : Bool := cs.isEmpty || isMarker '-' cs || isMarker '.' cs

/-- What follows blanks, ends of lines and comments. Tabs count as blanks only where no
indentation is counted: on the line given, or everywhere. -/
def skip (tabs : Nat → Bool) : List Cell → List Cell := go false
where
  /-- The flag tells whether a comment is being skipped. -/
  go (comment : Bool) : List Cell → List Cell
    | [] => []
    | c :: rest =>
      if isBreak c.char then go false rest
      else if comment || c.char = ' ' || (c.char = '\t' && tabs c.line) then go comment rest
      else if c.char = '#' then go true rest
      else c :: rest

end FieldCalculus.Yaml
