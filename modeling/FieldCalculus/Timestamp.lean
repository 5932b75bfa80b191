import FieldCalculus.Text.Blank

/-!
Instants in universal time and their text, `YYYY-MM-DDTHH:MM:SS` with as many
fraction digits as needed out of none, three, six and nine. Reading is lenient: any
offset is converted, blanks may stand between the parts and numbers may be short.
-/

namespace FieldCalculus

/-- An instant: whole seconds since the start of 1970 and nanoseconds within the
second. A leap second counts its nanoseconds from one billion up, on top of the last
second of its minute. -/
structure Timestamp where
  seconds : Int
  nanos : Nat
deriving DecidableEq, Inhabited

/-- A day of the Gregorian calendar. -/
structure CivilDate where
  year : Int
  month : Nat
  day : Nat
deriving DecidableEq

namespace CivilDate

/-- Days from the start of year 1 to the start of a year. -/
def daysBeforeYear (year : Int) : Int :=
  365 * (year - 1) + (year - 1) / 4 - (year - 1) / 100 + (year - 1) / 400

def isLeap (year : Int) : Bool := year % 4 = 0 && (year % 100 ≠ 0 || year % 400 = 0)

/-- The lengths of the months of a year. -/
def monthLengths (year : Int) : List Nat :=
  [31, if isLeap year then 29 else 28, 31, 30, 31, 30, 31, 31, 30, 31, 30, 31]

/-- Days from the start of a year to the start of a month. -/
def daysBeforeMonth (year : Int) (month : Nat) : Nat :=
  ((monthLengths year).take (month - 1)).foldl (· + ·) 0

/-- Whether the day exists. -/
def isValid (d : CivilDate) : Bool :=
  1 ≤ d.month && d.month ≤ 12 && 1 ≤ d.day &&
    d.day ≤ ((monthLengths d.year)[d.month - 1]?).getD 0

/-- Days from the start of 1970. -/
def toDays (d : CivilDate) : Int :=
  daysBeforeYear d.year - 719162 + daysBeforeMonth d.year d.month + (d.day : Int) - 1

/-- The year that a day lies in, counting from the start of year 1. The mean length
of a year gives a guess that is off by at most one. -/
def yearOf (day : Int) : Int :=
  let guess := day * 400 / 146097 + 1
  if day < daysBeforeYear guess then guess - 1
  else if daysBeforeYear (guess + 1) ≤ day then guess + 1
  else guess

/-- The date of a day, counting from the start of 1970. -/
def ofDays (days : Int) : CivilDate :=
  let day := days + 719162
  let year := yearOf day
  let dayOfYear := (day - daysBeforeYear year).toNat
  let month := ((List.range 12).filter fun m => daysBeforeMonth year (m + 1) ≤ dayOfYear).length
  ⟨year, month, dayOfYear - daysBeforeMonth year month + 1⟩

end CivilDate

namespace Timestamp

open Text

def secondsPerDay : Int := 86400

/-- The instant so many milliseconds after the start of 1970. -/
def ofMillis (ms : Nat) : Timestamp := ⟨(ms / 1000 : Nat), ms % 1000 * 1000000⟩

/-- The year with at least four digits; outside of 0 to 9999 it carries its sign. -/
def yearText (year : Int) : List Char :=
  if 0 ≤ year ∧ year ≤ 9999 then padded 4 year.toNat
  else (if year < 0 then '-' else '+') :: padded 4 year.natAbs

/-- The fraction of a second with the fewest of three, six or nine digits, and none
for no fraction. -/
def fractionText (nanos : Nat) : List Char :=
  if nanos = 0 then []
  else if nanos % 1000000 = 0 then '.' :: padded 3 (nanos / 1000000)
  else if nanos % 1000 = 0 then '.' :: padded 6 (nanos / 1000)
  else '.' :: padded 9 nanos

/-- The text of an instant. -/
def text (t : Timestamp) : List Char :=
  let date := CivilDate.ofDays (t.seconds / secondsPerDay)
  let second := (t.seconds % secondsPerDay).toNat
  let leap := if 1000000000 ≤ t.nanos then 1 else 0
  yearText date.year ++ '-' :: padded 2 date.month ++ '-' :: padded 2 date.day ++
    'T' :: padded 2 (second / 3600) ++ ':' :: padded 2 (second / 60 % 60) ++
    ':' :: padded 2 (second % 60 + leap) ++ fractionText (t.nanos % 1000000000) ++ ['Z']

/-! ## Reading -/

/-- At least one digit and at most `most`, after blanks. -/
def number? (most : Nat) (s : List Char) : Option (Nat × List Char) :=
  let s := skipBlanks s
  let digits := (s.take most).takeWhile isDigit
  if digits.isEmpty then none else some (natOfDigits digits, s.drop digits.length)

/-- A year: four digits at most, or any number of them after a sign. -/
def year? (s : List Char) : Option (Int × List Char) :=
  match skipBlanks s with
  | '-' :: rest => signed? rest fun n => -(n : Int)
  | '+' :: rest => signed? rest fun n => (n : Int)
  | rest => (number? 4 rest).map fun (n, rest) => ((n : Int), rest)
where
  /-- Digits right after the sign. -/
  signed? (rest : List Char) (value : Nat → Int) : Option (Int × List Char) :=
    let digits := rest.takeWhile isDigit
    if digits.isEmpty then none else some (value (natOfDigits digits), rest.drop digits.length)

/-- A separator, after blanks. -/
def mark? (c : Char) (s : List Char) : Option (List Char) :=
  match skipBlanks s with
  | d :: rest => if d = c then some rest else none
  | [] => none

/-- The nanoseconds of a fraction, if there is one; digits after the ninth do not count. -/
def fraction? : List Char → Option (Nat × List Char)
  | '.' :: rest =>
    let digits := rest.takeWhile isDigit
    let kept := digits.take 9
    if digits.isEmpty then none
    else some (natOfDigits kept * Nat.pow 10 (9 - kept.length), rest.drop digits.length)
  | s => some (0, s)

/-- Two digits. -/
def twoDigits? : List Char → Option (Nat × List Char)
  | a :: b :: rest => if isDigit a && isDigit b then some (natOfDigits [a, b], rest) else none
  | _ => none

/-- The offset from universal time, in seconds: a letter for none, or a sign, hours and
minutes. -/
def offset? (s : List Char) : Option (Int × List Char) :=
  match s with
  | 'Z' :: rest | 'z' :: rest => some (0, rest)
  | '+' :: rest => clock? rest 1
  | '-' :: rest => clock? rest (-1)
  | '−' :: rest => clock? rest (-1)
  | a :: b :: c :: rest =>
    if (a.toUpper, b.toUpper, c.toUpper) = ('U', 'T', 'C') then some (0, rest) else none
  | _ => none
where
  /-- Hours and minutes, with colons or blanks between them. -/
  clock? (s : List Char) (sign : Int) : Option (Int × List Char) := do
    let (hours, s) ← twoDigits? s
    let (minutes, s) ← twoDigits? (s.dropWhile fun c => c = ':' || isBlank c)
    if minutes < 60 ∧ hours < 24 then some (sign * (3600 * hours + 60 * minutes), s) else none

/-- The instant that a text stands for. -/
def ofText? (s : List Char) : Option Timestamp := do
  let (year, s) ← year? s
  let (month, s) ← number? 2 (← mark? '-' s)
  let (day, s) ← number? 2 (← mark? '-' s)
  let s ← match s with
    | 'T' :: rest | 't' :: rest | ' ' :: rest => some rest
    | _ => none
  let (hour, s) ← number? 2 s
  let (minute, s) ← number? 2 (← mark? ':' s)
  let (second, s) ← number? 2 (← mark? ':' s)
  let (nanos, s) ← fraction? s
  let (offset, s) ← offset? (skipBlanks s)
  let date : CivilDate := ⟨year, month, day⟩
  guard (date.isValid && hour < 24 && minute < 60 && second ≤ 60)
  guard (-262143 ≤ year && year ≤ 262142 && (skipBlanks s).isEmpty)
  let clock : Int := 3600 * hour + 60 * minute + (min second 59 : Nat) - offset
  let leap := if second = 60 then 1000000000 else 0
  return ⟨date.toDays * secondsPerDay + clock, nanos + leap⟩

end Timestamp

end FieldCalculus
