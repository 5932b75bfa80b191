import FieldCalculus.Text.Hex
import FieldCalculus.Yaml.Cell

/-!
Texts read from YAML: plain ones, quoted ones and blocks. In the first two an end of line
is folded into a space, and further ends of lines behind it are kept.
-/

namespace FieldCalculus.Yaml

open Text

/-! ## Folding -/

/-- The longest front that consists of blanks, and what follows. -/
def spanBlanks (cs : List Cell) : List Char × List Cell :=
  ((cs.takeWhile fun c => isBlank c.char).map Cell.char, cs.dropWhile fun c => isBlank c.char)

/-- What blanks between two words stand for. -/
def folded (gap : List Char) : List Char :=
  match gap.filter isBreak with
  | [] => gap
  | '\n' :: [] => [' ']
  | '\n' :: more => more
  | more => more

/-! ## Plain texts -/

/-- Characters that mean something inside of brackets. -/
def flowIndicators : List Char := [',', '[', ']', '\x7b', '\x7d']

/-- The longest front that can be part of a plain text and holds no blank. -/
def plainWord? (flow : Bool) : List Cell → Option (List Char × List Cell)
  | [] => some ([], [])
  | c :: rest =>
    if isBlank c.char || (c.char = ':' && blankNext rest) ||
        (flow && flowIndicators.contains c.char) then some ([], c :: rest)
    else if flow && c.char = ':' && rest.head?.any (fun d => ('?' :: flowIndicators).contains d.char) then
      none
    else (plainWord? flow rest).map fun (word, rest) => (c.char :: word, rest)

/-- Whether a plain text may go on after blanks. On a new line outside of brackets it has
to be indented. -/
def plainGoesOn (flow : Bool) (indent : Nat) (line : Nat) : List Cell → Bool
  | [] => false
  | c :: rest =>
    c.char != '#' && !atEnd (c :: rest) && (flow || c.line = line || indent ≤ c.column)

/-- A plain text and what follows it. Lines after the first are indented by at least
`indent` outside of brackets. The fuel bounds the number of words. -/
def plain? (flow : Bool) (indent : Nat) : Nat → List Cell → Option (List Char × List Cell)
  | 0, cs => some ([], cs)
  | fuel + 1, cs => do
    let (word, rest) ← plainWord? flow cs
    let (gap, next) := spanBlanks rest
    let gapCells := rest.takeWhile fun c => isBlank c.char
    let line := (cs.head?.map Cell.line).getD 0
    if gapCells.any fun c => c.char = '\t' && c.line != line && c.column < indent then none
    else if word.isEmpty || gap.isEmpty || !plainGoesOn flow indent line next then
      some (word, next)
    else do
      let (more, rest) ← plain? flow indent fuel next
      some (if more.isEmpty then (word, next) else (word ++ folded gap ++ more, rest))

/-! ## Quoted texts -/

/-- What an escape after a backslash stands for. -/
def escaped? : List Cell → Option (Char × List Cell)
  | [] => none
  | c :: rest =>
    if c.char = 'x' then coded? 2 rest
    else if c.char = 'u' then coded? 4 rest
    else if c.char = 'U' then coded? 8 rest
    else if c.char = ' ' || c.char = '/' then some (c.char, rest)
    else if c.char = '\t' then some ('\t', rest)
    else (shortLetters.lookup c.char).map fun d => (d, rest)
where
  /-- A character by so many digits of its number. -/
  coded? (digits : Nat) (cs : List Cell) : Option (Char × List Cell) := do
    let front := cs.take digits
    if front.length < digits then none
    let n ← front.foldlM (fun n c => (hexValue? c.char).map fun d => 16 * n + d) 0
    if n.isValidChar then some (Char.ofNat n, cs.drop digits) else none
  /-- The characters that have a letter of their own. -/
  shortLetters : List (Char × Char) :=
    [('0', '\x00'), ('a', '\x07'), ('b', '\x08'), ('t', '\t'), ('n', '\n'), ('v', '\x0b'),
     ('f', '\x0c'), ('r', '\r'), ('e', '\x1b'), ('"', '"'), ('\\', '\\'), ('N', '\x85'),
     ('_', '\u00a0'), ('L', '\u2028'), ('P', '\u2029')]

/-- A text up to its closing quote, which is twice if it belongs to a text between single
quotes. The fuel bounds the number of characters. -/
def quoted? (quote : Char) : Nat → List Cell → Option (List Char × List Cell)
  | 0, _ => none
  | _, [] => none
  | fuel + 1, c :: rest =>
    if isMarker '-' (c :: rest) || isMarker '.' (c :: rest) then none
    else if c.char = quote then
      if quote = '\'' && rest.head?.any (fun d => d.char = quote) then
        (quoted? quote fuel rest.tail).map fun (s, rest) => (quote :: s, rest)
      else some ([], rest)
    else if c.char = '\\' && quote = '"' then
      if rest.head?.any fun d => isBreak d.char then
        let (gap, next) := spanBlanks rest.tail
        (quoted? quote fuel next).map fun (s, rest) => (gap.filter isBreak ++ s, rest)
      else do
        let (d, rest) ← escaped? rest
        (quoted? quote fuel rest).map fun (s, rest) => (d :: s, rest)
    else if isBlank c.char then
      let (gap, next) := spanBlanks (c :: rest)
      (quoted? quote fuel next).map fun (s, rest) => (folded gap ++ s, rest)
    else (quoted? quote fuel rest).map fun (s, rest) => (c.char :: s, rest)

/-! ## Blocks -/

/-- What becomes of the ends of lines at the end of a block. -/
inductive Chomp where
  | strip | clip | keep
deriving DecidableEq

/-- The head of a block. -/
structure BlockHead where
  literal : Bool
  chomp : Chomp
  /-- The indentation beyond the surrounding one, if it is given. -/
  further : Option Nat

/-- The marks behind the sign of a block, each at most once. -/
def blockMarks? (literal : Bool) (cs : List Cell) : Option (BlockHead × List Cell) :=
  let digit? (c : Cell) : Option Nat :=
    if isDigit c.char && c.char != '0' then some (c.char.toNat - '0'.toNat) else none
  let chomp? (c : Cell) : Option Chomp :=
    if c.char = '-' then some .strip else if c.char = '+' then some .keep else none
  match cs with
  | [] => some (⟨literal, .clip, none⟩, [])
  | a :: rest =>
    match chomp? a, digit? a with
    | some chomp, _ =>
      match rest with
      | b :: rest' =>
        if b.char = '0' then none
        else match digit? b with
          | some n => some (⟨literal, chomp, some n⟩, rest')
          | none => some (⟨literal, chomp, none⟩, rest)
      | [] => some (⟨literal, chomp, none⟩, rest)
    | none, some n =>
      match rest with
      | b :: rest' =>
        match chomp? b with
        | some chomp => some (⟨literal, chomp, some n⟩, rest')
        | none => some (⟨literal, .clip, some n⟩, rest)
      | [] => some (⟨literal, .clip, some n⟩, rest)
    | none, none => if a.char = '0' then none else some (⟨literal, .clip, none⟩, cs)

/-- What follows the line of a block's head: nothing but blanks and a comment may be left
on it. -/
def afterHead? (cs : List Cell) : Option (List Cell) :=
  match cs.dropWhile fun c => c.char = ' ' || c.char = '\t' with
  | [] => some []
  | c :: rest =>
    if isBreak c.char then some rest
    else if c.char = '#' then some ((rest.dropWhile fun c => !isBreak c.char).drop 1)
    else none

/-- The greatest indentation up to the first line that is not blank. A tab cannot indent. -/
def shownIndent? (most : Nat) : List Cell → Option Nat
  | [] => some most
  | c :: rest =>
    if c.char = ' ' then shownIndent? (max most (c.column + 1)) rest
    else if isBreak c.char then shownIndent? most rest
    else if c.char = '\t' then none
    else some most

/-- A line of a block. -/
inductive BlockLine where
  | blank (ending : Char)
  /-- The content without its indentation, and how the line ends. -/
  | filled (content ending : List Char)

/-- The lines that are indented far enough. The fuel bounds their number. -/
def blockLines? (indent : Nat) : Nat → List Cell → Option (List BlockLine × List Cell)
  | 0, cs => some ([], cs)
  | fuel + 1, cs =>
    match cs.dropWhile fun c => c.char = ' ' && c.column < indent with
    | [] => some ([], [])
    | c :: rest =>
      if isBreak c.char then
        (blockLines? indent fuel rest).map fun (lines, rest) => (.blank c.char :: lines, rest)
      else if c.column < indent then
        if c.char = '\t' then none else some ([], c :: rest)
      else
        let content := ((c :: rest).takeWhile fun c => !isBreak c.char).map Cell.char
        let after := (c :: rest).dropWhile fun c => !isBreak c.char
        (blockLines? indent fuel (after.drop 1)).map fun (lines, rest) =>
          (.filled content ((after.take 1).map Cell.char) :: lines, rest)

/-- What has been seen of a block: its text so far, the end of the last filled line, those
of the blank lines behind it, and whether that line started with a blank. -/
structure BlockState where
  text : List Char
  ending : List Char
  blanks : List Char
  startedBlank : Bool

/-- Takes in a line. Unless the block is literal, the end of a line between two lines that
start without a blank is folded. -/
def BlockState.add (literal : Bool) (s : BlockState) : BlockLine → BlockState
  | .blank ending => { s with blanks := s.blanks ++ [ending] }
  | .filled content ending =>
    let startsBlank := content.head?.any fun c => c = ' ' || c = '\t'
    let joint :=
      if !literal && s.ending = ['\n'] && !s.startedBlank && !startsBlank then
        if s.blanks.isEmpty then [' '] else s.blanks
      else s.ending ++ s.blanks
    ⟨s.text ++ joint ++ content, ending, [], startsBlank⟩

/-- The text of a block, which starts behind its sign and lies in a container at column
`parent`, if it lies in one. -/
def block? (literal : Bool) (parent : Option Nat) (cs : List Cell) :
    Option (List Char × List Cell) := do
  let (head, cs) ← blockMarks? literal cs
  let cs ← afterHead? cs
  let least := parent.elim 1 (· + 1)
  let indent ← match head.further with
    | some n => some (parent.getD 0 + n)
    | none => (shownIndent? 0 cs).map (max least)
  let (lines, rest) ← blockLines? indent cs.length cs
  let s := lines.foldl (BlockState.add literal) ⟨[], [], [], false⟩
  let tail := match head.chomp with
    | .strip => []
    | .clip => s.ending
    | .keep => s.ending ++ s.blanks
  some (s.text ++ tail, rest)

end FieldCalculus.Yaml
