import FieldCalculus.Document.Word

/-!
How a text is written in YAML. A text of several lines is a literal block; another one
stands plain if nothing in it could be mistaken for structure or for another type, and
between single quotes otherwise. What neither can hold is escaped in double quotes.
-/

namespace FieldCalculus.Yaml

/-- Whether a character ends a line. -/
def isBreak (c : Char) : Bool :=
  c = '\n' || c = '\r' || c = '\x85' || c = '\u2028' || c = '\u2029'

/-- Whether a character is a space, a tab or the end of a line. -/
def isBlank (c : Char) : Bool := c = ' ' || c = '\t' || isBreak c

/-- Whether a character can be written as it is. -/
def isPrintable (c : Char) : Bool :=
  let n := c.toNat
  n = 0xa || (0x20 ≤ n && n ≤ 0x7e) || (0xa0 ≤ n && n ≠ 0xfeff && n ≠ 0xfffe && n ≠ 0xffff)

/-- Characters that mean something where a node starts. -/
def startIndicators : List Char :=
  ['#', ',', '[', ']', '\x7b', '\x7d', '&', '*', '!', '|', '>', '\'', '"', '%', '@', '\x60']

/-- Whether the first character starts something else than a plain text. -/
def startsStructure : List Char → Bool
  | [] => false
  | c :: rest =>
    startIndicators.contains c ||
      ((c = '?' || c = ':' || c = '-') && rest.head?.all isBlank) ||
      ['-', '-', '-'].isPrefixOf (c :: rest) || ['.', '.', '.'].isPrefixOf (c :: rest)

/-- Whether a later character ends a plain text: a colon before a blank or at the end, or
a comment sign after a blank. -/
def endsPlain : List Char → Bool
  | a :: b :: rest =>
    (b = ':' && rest.head?.all isBlank) || (b = '#' && isBlank a) || endsPlain (b :: rest)
  | _ => false

/-- Whether somewhere a character of one kind is followed by one of another kind. -/
def follows (p q : Char → Bool) : List Char → Bool
  | a :: b :: rest => (p a && q b) || follows p q (b :: rest)
  | _ => false

/-- The ways to write a text. -/
inductive Style where
  | plain | single | double | literal
deriving DecidableEq

/-- Whether no way but escapes can hold the text: characters that cannot be written as
they are, or spaces at the end of a line. -/
def needsEscapes (s : List Char) : Bool := !s.all isPrintable || follows (· = ' ') isBreak s

/-- Whether a text can stand plain, its meaning aside. -/
def fitsPlain (s : List Char) : Bool :=
  !s.any isBreak && s.head? != some ' ' && s.getLast? != some ' ' && !startsStructure s &&
    !endsPlain s

/-- How a text is written. -/
def styleOf (text : String) : Style :=
  let s := text.toList
  if s.contains '\n' then
    if needsEscapes s || s.getLast? = some ' ' then .double else .literal
  else if needsEscapes s || follows isBreak (· = ' ') s then .double
  else if Word.isPlainText text && fitsPlain s then .plain
  else .single

/-- Whether a text can be a key on one line. -/
def isShortKey (text : String) : Bool := !text.toList.any isBreak && text.utf8ByteSize ≤ 128

end FieldCalculus.Yaml
