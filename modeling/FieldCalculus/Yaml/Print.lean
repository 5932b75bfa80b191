import FieldCalculus.Document
import FieldCalculus.Number.Layout
import FieldCalculus.Yaml.Style

/-!
Documents printed in YAML, in block style. Lists that are the content of a key are not
indented below it. A container that starts behind a dash starts on the same line.
-/

namespace FieldCalculus.Yaml

def spaces (n : Nat) : List Char := List.replicate n ' '

/-! ## Texts -/

/-- The digits of a number in base sixteen, in upper case, with zeros up to a width. -/
def upperHex (width n : Nat) : List Char :=
  let digits := (Nat.toDigits 16 n).map Char.toUpper
  List.replicate (width - digits.length) '0' ++ digits

/-- The letters of the short escapes. -/
def shortEscapes : List (Char × Char) :=
  [('\x00', '0'), ('\x07', 'a'), ('\x08', 'b'), ('\t', 't'), ('\n', 'n'), ('\x0b', 'v'),
   ('\x0c', 'f'), ('\r', 'r'), ('\x1b', 'e'), ('"', '"'), ('\\', '\\'), ('\x85', 'N'),
   ('\u00a0', '_'), ('\u2028', 'L'), ('\u2029', 'P')]

/-- How a character is written between double quotes. -/
def escape (c : Char) : List Char :=
  if isPrintable c && !isBreak c && c != '"' && c != '\\' then [c]
  else match shortEscapes.lookup c with
    | some letter => ['\\', letter]
    | none =>
      if c.toNat ≤ 0xff then '\\' :: 'x' :: upperHex 2 c.toNat
      else if c.toNat ≤ 0xffff then '\\' :: 'u' :: upperHex 4 c.toNat
      else '\\' :: 'U' :: upperHex 8 c.toNat

/-- A text of several lines. What follows the end of a line is indented, ends of lines
aside; `fresh` tells whether a line was just ended. -/
def indented (indent : Nat) : Bool → List Char → List Char
  | _, [] => []
  | fresh, c :: rest =>
    if isBreak c then c :: indented indent true rest
    else (if fresh then spaces indent else []) ++ c :: indented indent false rest

/-- A text between single quotes, where a quote is written twice. -/
def single (indent : Nat) (s : List Char) : List Char :=
  let doubled := s.flatMap fun c => if c = '\'' then ['\'', '\''] else [c]
  let close := if s.getLast?.any isBreak then spaces indent else []
  '\'' :: indented indent false doubled ++ close ++ ['\'']

/-- The head of a literal block. It tells the indentation if the first line does not show
it, and what to do with the ends of lines at the end: drop the one that is added, keep
all, or keep exactly one. -/
def literalHead (s : List Char) : List Char :=
  let hint := if s.head?.any fun c => c = ' ' || isBreak c then ['2'] else []
  let last := s.getLast?.any isBreak
  let chomp :=
    if !last then ['-']
    else if s.length = 1 || s.dropLast.getLast?.any isBreak then ['+']
    else []
  '|' :: hint ++ chomp ++ ['\n']

/-- A text to the end of its last line, with an indentation for further lines. -/
def textLine (indent : Nat) (text : String) : List Char :=
  let s := text.toList
  match styleOf text with
  | .plain => s ++ ['\n']
  | .single => single indent s ++ ['\n']
  | .double => '"' :: s.flatMap escape ++ ['"', '\n']
  | .literal =>
    literalHead s ++ indented indent true s ++ (if s.getLast?.any isBreak then [] else ['\n'])

/-- A leaf to the end of its last line. -/
def scalarLine (indent : Nat) : Scalar → List Char
  | .null => "null\n".toList
  | .bool b => (if b then "true\n" else "false\n").toList
  | .int n => (toString n).toList ++ ['\n']
  | .number n => (n.text .yaml).toList ++ ['\n']
  | .text s => textLine indent s
  | .word s => s.toList ++ ['\n']

/-- A key at a column, up to its colon. One that is long or has several lines stands
behind a question mark. -/
def keyLead (column : Nat) (name : String) : List Char :=
  if isShortKey name then (textLine (column + 2) name).dropLast ++ [':']
  else '?' :: ' ' :: textLine (column + 2) name ++ spaces column ++ [':']

/-! ## Containers -/

mutual

/-- What follows a dash, a question mark or a lone colon at a column. -/
def afterMark (column : Nat) : Document → List Char
  | .scalar s => ' ' :: scalarLine (column + 2) s
  | .list [] => " []\n".toList
  | .list items => ' ' :: itemLines (column + 2) items
  | .object [] => " \x7b\x7d\n".toList
  | .object fields => ' ' :: fieldLines (column + 2) fields
  | .tagged d => afterMark column d
  | .unreadable => " null\n".toList

/-- What follows a short key at a column. -/
def afterKey (column : Nat) : Document → List Char
  | .scalar s => ' ' :: scalarLine (column + 2) s
  | .list [] => " []\n".toList
  | .list items => '\n' :: spaces column ++ itemLines column items
  | .object [] => " \x7b\x7d\n".toList
  | .object fields => '\n' :: spaces (column + 2) ++ fieldLines (column + 2) fields
  | .tagged d => afterKey column d
  | .unreadable => " null\n".toList

/-- Items at a column, the first one without its indentation. -/
def itemLines (column : Nat) : List Document → List Char
  | [] => []
  | [d] => '-' :: afterMark column d
  | d :: rest => '-' :: afterMark column d ++ spaces column ++ itemLines column rest

/-- Fields at a column, the first one without its indentation. -/
def fieldLines (column : Nat) : List (String × Document) → List Char
  | [] => []
  | [(name, d)] =>
    keyLead column name ++ if isShortKey name then afterKey column d else afterMark column d
  | (name, d) :: rest =>
    keyLead column name ++ (if isShortKey name then afterKey column d else afterMark column d) ++
      spaces column ++ fieldLines column rest

end

/-- A document that stands alone. -/
def root : Document → List Char
  | .scalar s => scalarLine 2 s
  | .list [] => "[]\n".toList
  | .list items => itemLines 0 items
  | .object [] => "\x7b\x7d\n".toList
  | .object fields => fieldLines 0 fields
  | .tagged d => root d
  | .unreadable => "null\n".toList

/-- The text of a document. -/
def render (d : Document) : String := String.ofList (root d)

end FieldCalculus.Yaml
