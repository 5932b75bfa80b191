import FieldCalculus.Document

/-!
Texts, numbers and dates in TOML. Dates and times have no type of their own here; they
are kept as texts in one fixed form.
-/

namespace FieldCalculus.Toml

open Text

/-- Whether a character may occur in a text or a comment on one line. -/
def isAllowed (c : Char) : Bool := c = '\t' || (0x20 ≤ c.toNat && c.toNat ≠ 0x7f)

/-- What follows spaces and tabs. -/
def skipSpaces (s : List Char) : List Char := s.dropWhile fun c => c = ' ' || c = '\t'

/-- The end of a line at the start of a text, and what follows it. -/
def newline? : List Char → Option (List Char)
  | '\n' :: rest => some rest
  | '\r' :: '\n' :: rest => some rest
  | _ => none

/-! ## Texts -/

/-- What an escape after a backslash stands for. -/
def escaped? : List Char → Option (Char × List Char)
  | 'b' :: rest => some ('\x08', rest)
  | 't' :: rest => some ('\t', rest)
  | 'n' :: rest => some ('\n', rest)
  | 'f' :: rest => some ('\x0c', rest)
  | 'r' :: rest => some ('\r', rest)
  | '"' :: rest => some ('"', rest)
  | '\\' :: rest => some ('\\', rest)
  | 'u' :: rest => coded? 4 rest
  | 'U' :: rest => coded? 8 rest
  | _ => none
where
  /-- A character by so many digits of its number. -/
  coded? (digits : Nat) (s : List Char) : Option (Char × List Char) := do
    if s.length < digits then none
    let n ← Word.natInBase? 16 (s.take digits)
    if n.isValidChar then some (Char.ofNat n, s.drop digits) else none

/-- A text on one line up to its closing quote. The fuel bounds its length. -/
def line? (quote : Char) : Nat → List Char → Option (List Char × List Char)
  | 0, _ => none
  | _, [] => none
  | fuel + 1, c :: rest =>
    if c = quote then some ([], rest)
    else if c = '\\' && quote = '"' then do
      let (d, rest) ← escaped? rest
      (line? quote fuel rest).map fun (s, rest) => (d :: s, rest)
    else if isAllowed c then (line? quote fuel rest).map fun (s, rest) => (c :: s, rest)
    else none

/-- What follows blanks and ends of lines. -/
def skipBlankLines (s : List Char) : List Char :=
  s.dropWhile fun c => c = ' ' || c = '\t' || c = '\n' || c = '\r'

/-- A text of several lines up to three quotes. Two more quotes may stand before those. A
backslash at the end of a line drops the blanks that follow. The fuel bounds its length. -/
def lines? (quote : Char) : Nat → List Char → Option (List Char × List Char)
  | 0, _ => none
  | _, [] => none
  | fuel + 1, c :: rest =>
    let quotes := ((c :: rest).takeWhile (· = quote)).length
    if 3 ≤ quotes then
      let extra := min (quotes - 3) 2
      some (List.replicate extra quote, (c :: rest).drop (extra + 3))
    else if c = '\\' && quote = '"' then
      if (newline? (skipSpaces rest)).isSome then lines? quote fuel (skipBlankLines rest)
      else do
        let (d, rest) ← escaped? rest
        (lines? quote fuel rest).map fun (s, rest) => (d :: s, rest)
    else match newline? (c :: rest) with
      | some rest => (lines? quote fuel rest).map fun (s, rest) => ('\n' :: s, rest)
      | none =>
        if isAllowed c then (lines? quote fuel rest).map fun (s, rest) => (c :: s, rest) else none

/-- A text behind its first quote. -/
def text? (quote : Char) (s : List Char) : Option (List Char × List Char) :=
  match s with
  | a :: b :: rest =>
    if a = quote && b = quote then
      lines? quote (rest.length + 1) ((newline? rest).getD rest)
    else line? quote (s.length + 1) s
  | s => line? quote (s.length + 1) s

/-! ## Numbers -/

/-- Digits with single underscores among them. -/
def plainDigits? (s : List Char) : Option (List Char) :=
  let groups := s.splitOn '_'
  if groups.all fun g => !g.isEmpty && g.all fun c => (hexValue? c).isSome then some groups.flatten
  else none

/-- Digits in base ten that start with zero only for zero itself. -/
def decimalDigits? (s : List Char) : Option (List Char) := do
  let digits ← plainDigits? s
  if !digits.all isDigit || (1 < digits.length && digits.head? = some '0') then none else some digits

/-- A whole number that fits into 64 bits with a sign. -/
def integer? (s : List Char) : Option Int :=
  let based (base : Nat) (s : List Char) : Option Int :=
    ((plainDigits? s).bind (Word.natInBase? base)).map fun n => (n : Int)
  let n := match s with
    | '0' :: 'x' :: s => based 16 s
    | '0' :: 'o' :: s => based 8 s
    | '0' :: 'b' :: s => based 2 s
    | '-' :: s => (decimalDigits? s).map fun d => -(natOfDigits d : Int)
    | '+' :: s => (decimalDigits? s).map fun d => (natOfDigits d : Int)
    | s => (decimalDigits? s).map fun d => (natOfDigits d : Int)
  n.filter Word.fitsSigned

/-- A number with a point or an exponent, or the name of one that has no digits. -/
def float? (s : List Char) : Option Number :=
  let bare := match s with
    | '-' :: s | '+' :: s => s
    | s => s
  let whole := bare.takeWhile fun c => isDigit c || c = '_'
  let rest := bare.drop whole.length
  let fraction? : Option (List Char × List Char) := match rest with
    | '.' :: rest =>
      let digits := rest.takeWhile fun c => isDigit c || c = '_'
      (plainDigits? digits).map fun d => ('.' :: d, rest.drop digits.length)
    | rest => some ([], rest)
  let exponent? (rest : List Char) : Option (List Char) := match rest with
    | [] => some []
    | 'e' :: sign :: rest | 'E' :: sign :: rest =>
      if sign = '-' || sign = '+' then (plainDigits? rest).map fun d => 'e' :: sign :: d
      else (plainDigits? (sign :: rest)).map fun d => 'e' :: d
    | _ => none
  if bare = ['i', 'n', 'f'] || bare = ['n', 'a', 'n'] then Word.float? s
  else do
    let digits ← decimalDigits? whole
    let (fraction, rest) ← fraction?
    let exponent ← exponent? rest
    if fraction.isEmpty && exponent.isEmpty then none
    let sign := if s.head? = some '-' then ['-'] else []
    (Word.float? (sign ++ digits ++ fraction ++ exponent)).filter Number.isFinite

/-! ## Dates and times -/

/-- A number of exactly so many digits within bounds. -/
def field? (digits low high : Nat) (s : List Char) : Option (List Char × List Char) :=
  let front := s.take digits
  let n := natOfDigits front
  if front.length = digits && front.all isDigit && low ≤ n && n ≤ high then some (front, s.drop digits)
  else none

/-- A sign, if it stands here. -/
def sign? (c : Char) : List Char → Option (List Char)
  | d :: rest => if d = c then some rest else none
  | [] => none

/-- A date. -/
def date? (s : List Char) : Option (List Char × List Char) := do
  let (year, s) ← field? 4 0 9999 s
  let (month, s) ← field? 2 1 12 (← sign? '-' s)
  let (day, s) ← field? 2 1 31 (← sign? '-' s)
  some (year ++ '-' :: month ++ '-' :: day, s)

/-- A time of day, the fraction of a second without needless zeros. -/
def time? (s : List Char) : Option (List Char × List Char) := do
  let (hour, s) ← field? 2 0 23 s
  let (minute, s) ← field? 2 0 59 (← sign? ':' s)
  let (second, s) ← field? 2 0 60 (← sign? ':' s)
  let clock := hour ++ ':' :: minute ++ ':' :: second
  match s with
  | '.' :: rest =>
    let digits := rest.takeWhile isDigit
    if digits.isEmpty then none
    let kept := ((digits.take 9).reverse.dropWhile (· = '0')).reverse
    some (clock ++ (if kept.isEmpty then [] else '.' :: kept), rest.drop digits.length)
  | s => some (clock, s)

/-- An offset from universal time, if there is one. -/
def offset? (s : List Char) : Option (List Char × List Char) :=
  match s with
  | 'Z' :: rest | 'z' :: rest => some (['Z'], rest)
  | c :: rest =>
    if c = '+' || c = '-' then do
      let (hour, s) ← field? 2 0 23 rest
      let (minute, s) ← field? 2 0 59 (← sign? ':' s)
      some (c :: hour ++ ':' :: minute, s)
    else some ([], s)
  | [] => some ([], [])

/-- A date, a time, or both with an optional offset, and what follows. -/
def moment? (s : List Char) : Option (List Char × List Char) :=
  match date? s with
  | none => time? s
  | some (date, rest) =>
    let joined (s : List Char) : Option (List Char × List Char) := do
      let (time, s) ← time? s
      let (offset, s) ← offset? s
      some (date ++ 'T' :: time ++ offset, s)
    match rest with
    | 'T' :: s | 't' :: s => joined s
    | ' ' :: c :: s => if isDigit c then joined (c :: s) else some (date, rest)
    | rest => some (date, rest)

/-- A value that is no text, list or table, and what follows. -/
def leaf? (s : List Char) : Option (Scalar × List Char) :=
  match moment? s with
  | some (text, rest) => some (.text (String.ofList text), rest)
  | none =>
    let isPart (c : Char) : Bool := c.isAlphanum || ['+', '-', '_', '.'].contains c
    let word := s.takeWhile isPart
    let rest := s.dropWhile isPart
    if word = "true".toList then some (.bool true, rest)
    else if word = "false".toList then some (.bool false, rest)
    else match integer? word, float? word with
      | some n, _ => some (.int n, rest)
      | none, some n => some (.number n, rest)
      | none, none => none

end FieldCalculus.Toml
