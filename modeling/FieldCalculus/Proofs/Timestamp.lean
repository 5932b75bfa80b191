import FieldCalculus.Timestamp
import Mathlib.Algebra.Group.Nat.Defs

/-!
An instant is read back from its text as it was written. The calendar counts every day as
one date and every text that is written has fixed places, so that each part is read where
the part before it ends.
-/

namespace FieldCalculus

namespace CivilDate

/-! ## Years -/

theorem daysBeforeYear_succ (year : Int) :
    daysBeforeYear (year + 1) = daysBeforeYear year + 365 + (isLeap year).toNat := by
  have hleap : isLeap year = true ↔ year % 4 = 0 ∧ (year % 100 ≠ 0 ∨ year % 400 = 0) := by
    simp [isLeap]
  unfold daysBeforeYear
  cases hyear : isLeap year with
  | false =>
      rw [hyear] at hleap
      have hcommon : ¬(year % 4 = 0 ∧ (year % 100 ≠ 0 ∨ year % 400 = 0)) := by
        intro h
        cases hleap.mpr h
      simp only [Bool.toNat_false]
      omega
  | true =>
      have hlong := hleap.mp hyear
      simp only [Bool.toNat_true]
      omega

/-- A day lies in its year. -/
theorem yearOf_spec (day : Int) :
    daysBeforeYear (yearOf day) ≤ day ∧ day < daysBeforeYear (yearOf day + 1) := by
  unfold yearOf
  dsimp only
  -- The guess by mean length is off by one at most, which the arithmetic of each case confirms.
  split
  · rename_i hbefore
    unfold daysBeforeYear at *
    omega
  · rename_i hnotBefore
    split
    · rename_i hafter
      unfold daysBeforeYear at *
      omega
    · rename_i hnotAfter
      exact ⟨by omega, by omega⟩

/-! ## Days of a year -/

/-- How many months of a year have begun on a day of it, counting days from zero. -/
def monthOf (year : Int) (dayOfYear : Nat) : Nat :=
  ((List.range 12).filter fun m => daysBeforeMonth year (m + 1) ≤ dayOfYear).length

/-- The date of a day of a year exists, and the day does not lie before its month. -/
def DayFits (year : Int) (dayOfYear : Nat) : Prop :=
  daysBeforeMonth year (monthOf year dayOfYear) ≤ dayOfYear ∧
    CivilDate.isValid ⟨year, monthOf year dayOfYear,
      dayOfYear - daysBeforeMonth year (monthOf year dayOfYear) + 1⟩

instance (year : Int) (dayOfYear : Nat) : Decidable (DayFits year dayOfYear) :=
  inferInstanceAs (Decidable (_ ∧ _))

theorem dayFits_congr {year other : Int} (h : isLeap year = isLeap other) (dayOfYear : Nat) :
    DayFits year dayOfYear ↔ DayFits other dayOfYear := by
  have hlengths : monthLengths year = monthLengths other := by
    unfold monthLengths
    rw [h]
  have hbefore : daysBeforeMonth year = daysBeforeMonth other := by
    funext month
    unfold daysBeforeMonth
    rw [hlengths]
  unfold DayFits monthOf isValid
  rw [hlengths, hbefore]

/-- It is enough to look at one common year and one leap year. -/
theorem dayFits {year : Int} {dayOfYear : Nat} (h : dayOfYear < 365 + (isLeap year).toNat) :
    DayFits year dayOfYear := by
  have hcommon : ∀ day < 365, DayFits 1 day := by decide +kernel
  have hleap : ∀ day < 366, DayFits 4 day := by decide +kernel
  cases hyear : isLeap year with
  | false =>
      rw [hyear] at h
      have hsame : isLeap year = isLeap 1 := hyear.trans (by decide)
      exact (dayFits_congr hsame dayOfYear).mpr (hcommon dayOfYear h)
  | true =>
      rw [hyear] at h
      have hsame : isLeap year = isLeap 4 := hyear.trans (by decide)
      exact (dayFits_congr hsame dayOfYear).mpr (hleap dayOfYear h)

theorem ofDays_eq (days : Int) : ofDays days =
    let year := yearOf (days + 719162)
    let dayOfYear := (days + 719162 - daysBeforeYear year).toNat
    ⟨year, monthOf year dayOfYear,
      dayOfYear - daysBeforeMonth year (monthOf year dayOfYear) + 1⟩ := rfl

theorem dayOfYear_lt (day : Int) :
    (day - daysBeforeYear (yearOf day)).toNat < 365 + (isLeap (yearOf day)).toNat := by
  obtain ⟨hbegun, hover⟩ := yearOf_spec day
  rw [daysBeforeYear_succ] at hover
  omega

/-- Every day has a date that exists. -/
theorem isValid_ofDays (days : Int) : (ofDays days).isValid := by
  rw [ofDays_eq]
  exact (dayFits (dayOfYear_lt _)).2

/-- The date of a day is that of no other day. -/
theorem toDays_ofDays (days : Int) : (ofDays days).toDays = days := by
  have hbegun := (yearOf_spec (days + 719162)).1
  have hmonth := (dayFits (dayOfYear_lt (days + 719162))).1
  rw [ofDays_eq]
  unfold toDays
  dsimp only
  omega

theorem lt_of_isValid {d : CivilDate} (h : d.isValid) : d.month < 100 ∧ d.day < 100 := by
  have hlengths : ∀ length ∈ monthLengths d.year, length ≤ 31 := by
    unfold monthLengths
    cases isLeap d.year with
    | false => decide
    | true => decide
  have hlength : ((monthLengths d.year)[d.month - 1]?).getD 0 ≤ 31 := by
    cases hfound : (monthLengths d.year)[d.month - 1]? with
    | none => exact Nat.zero_le _
    | some length => exact hlengths length (List.mem_of_getElem? hfound)
  simp only [isValid, Bool.and_eq_true, decide_eq_true_eq] at h
  obtain ⟨⟨⟨-, hmonth⟩, -⟩, hday⟩ := h
  exact ⟨by omega, by omega⟩

end CivilDate

/-! ## Digits -/

namespace Text

variable {width n : Nat} {c : Char}

theorem padded_eq (width n : Nat) : padded width n =
    List.replicate (width - (Nat.toDigits 10 n).length) '0' ++ Nat.toDigits 10 n := by
  have hdigits : (toString n).toList = Nat.toDigits 10 n := by
    rw [Nat.toString_eq_ofList_toDigits, String.toList_ofList]
  rw [padded, hdigits]

theorem length_padded (hpos : 0 < width) (h : n < 10 ^ width) :
    (padded width n).length = width := by
  have hlength := (Nat.length_toDigits_le_iff (by decide) hpos).mpr h
  rw [padded_eq, List.length_append, List.length_replicate]
  omega

theorem isDigit_of_mem_padded (h : c ∈ padded width n) : isDigit c := by
  rw [padded_eq, List.mem_append] at h
  rcases h with hzero | hdigit
  · rw [List.eq_of_mem_replicate hzero]
    decide
  · exact Nat.isDigit_of_mem_toDigits (by decide) (by decide) hdigit

/-- Zeros in front do not change what digits stand for. -/
theorem natOfDigits_padded (width n : Nat) : natOfDigits (padded width n) = n := by
  have hvalue : natOfDigits (padded width n) = Nat.ofDigitChars 10 (padded width n) 0 := rfl
  rw [hvalue, padded_eq, Nat.ofDigitChars_append, Nat.ofDigitChars_replicate_zero, Nat.mul_zero,
    Nat.ofDigitChars_ten_toDigits]

theorem isBlank_of_isDigit (h : isDigit c) : isBlank c = false := by
  have hbounds : '0'.toNat ≤ c.toNat ∧ c.toNat ≤ '9'.toNat := Char.isDigit_iff_toNat.mp h
  have hzero : '0'.toNat = 48 := rfl
  have hnine : '9'.toNat = 57 := rfl
  rw [hzero, hnine] at hbounds
  simp only [isBlank, Bool.or_eq_false_iff, Bool.and_eq_false_iff, decide_eq_false_iff_not,
    beq_eq_false_iff_ne]
  omega

/-- Digits are read up to what is not one. -/
theorem takeWhile_padded (width n : Nat) {mark : Char} (h : isDigit mark = false)
    (rest : List Char) :
    (padded width n ++ mark :: rest).takeWhile isDigit = padded width n := by
  rw [List.takeWhile_append_of_pos fun c hc => isDigit_of_mem_padded hc,
    List.takeWhile_cons_of_neg (by simp [h]), List.append_nil]

theorem padded_cons (hpos : 0 < width) (h : n < 10 ^ width) :
    ∃ first others, padded width n = first :: others ∧ isDigit first := by
  cases hdigits : padded width n with
  | nil =>
      have hlength := length_padded hpos h
      rw [hdigits] at hlength
      exact absurd hlength (Nat.ne_of_lt hpos)
  | cons first others =>
      exact ⟨first, others, rfl, isDigit_of_mem_padded (hdigits ▸ List.mem_cons_self)⟩

theorem skipBlanks_padded (hpos : 0 < width) (h : n < 10 ^ width) (rest : List Char) :
    skipBlanks (padded width n ++ rest) = padded width n ++ rest := by
  obtain ⟨first, others, hdigits, hfirst⟩ := padded_cons hpos h
  rw [hdigits, skipBlanks, List.cons_append,
    List.dropWhile_cons_of_neg (by simp [isBlank_of_isDigit hfirst])]

end Text

/-! ## Texts of instants -/

namespace Timestamp

open Text

variable {n : Nat}

theorem number?_padded {most : Nat} (hpos : 0 < most) (h : n < 10 ^ most) (rest : List Char) :
    number? most (padded most n ++ rest) = some (n, rest) := by
  have hlength := length_padded hpos h
  have hdigits : ((padded most n ++ rest).take most).takeWhile isDigit = padded most n := by
    have hall : (padded most n ++ []).takeWhile isDigit = padded most n ++ [] := by
      rw [List.takeWhile_append_of_pos fun c hc => isDigit_of_mem_padded hc]
      rfl
    rw [List.append_nil] at hall
    rw [List.take_left' hlength, hall]
  have hsome : (padded most n).isEmpty = false := by
    rw [List.isEmpty_eq_false_iff, ← List.length_pos_iff, hlength]
    exact hpos
  rw [number?, skipBlanks_padded hpos h, hdigits, hsome, natOfDigits_padded, List.drop_left' rfl]
  rfl

theorem year?_padded (h : n < 10 ^ 4) (rest : List Char) :
    year? (padded 4 n ++ rest) = some ((n : Int), rest) := by
  obtain ⟨first, others, hdigits, hfirst⟩ := padded_cons (by decide) h
  have hnumber := number?_padded (by decide) h rest
  rw [year?, skipBlanks_padded (by decide) h]
  rw [hdigits, List.cons_append] at hnumber ⊢
  split
  · rename_i heq
    cases heq
    cases hfirst
  · rename_i heq
    cases heq
    cases hfirst
  · rw [hnumber]
    rfl

/-- A part that is read, and the parts after it. -/
theorem next {α β : Type} {part : Option α} {a : α} {others : α → Option β} {b : Option β}
    (h : part = some a) (hothers : others a = b) : (part >>= others) = b := by
  rw [h]
  exact hothers

theorem mark?_dash (rest : List Char) : mark? '-' ('-' :: rest) = some rest := rfl

theorem mark?_colon (rest : List Char) : mark? ':' (':' :: rest) = some rest := rfl

/-- A fraction of fixed width is read as nanoseconds. -/
theorem fraction?_padded {width : Nat} (hpos : 0 < width) (hwidth : width ≤ 9)
    (h : n < 10 ^ width) (rest : List Char) :
    fraction? ('.' :: padded width n ++ 'Z' :: rest) =
      some (n * 10 ^ (9 - width), 'Z' :: rest) := by
  have hlength := length_padded hpos h
  have hkept : (padded width n).take 9 = padded width n :=
    List.take_of_length_le (by omega)
  have hsome : (padded width n).isEmpty = false := by
    rw [List.isEmpty_eq_false_iff, ← List.length_pos_iff, hlength]
    exact hpos
  rw [List.cons_append, fraction?, takeWhile_padded _ _ (by decide), hkept, hsome,
    natOfDigits_padded, hlength, List.drop_left' hlength]
  rfl

theorem fraction?_fractionText (h : n < 1000000000) (rest : List Char) :
    fraction? (fractionText n ++ 'Z' :: rest) = some (n, 'Z' :: rest) := by
  unfold fractionText
  split
  · rename_i hzero
    rw [hzero]
    rfl
  · split
    · rename_i hmillis
      rw [fraction?_padded (by decide) (by decide) (by omega)]
      have hexact : n / 1000000 * 10 ^ (9 - 3) = n := by omega
      rw [hexact]
    · split
      · rename_i hmicros
        rw [fraction?_padded (by decide) (by decide) (by omega)]
        have hexact : n / 1000 * 10 ^ (9 - 6) = n := by omega
        rw [hexact]
      · rw [fraction?_padded (by decide) (by decide) (by omega)]
        rw [Nat.sub_self, Nat.pow_zero, Nat.mul_one]

/-- A date and a time of day in fixed places, each of which is read where the one before it
ends. -/
theorem ofText?_parts {year month day hour minute second nanos : Nat} (hyear : year < 10 ^ 4)
    (hvalid : CivilDate.isValid ⟨year, month, day⟩) (hhour : hour < 24) (hminute : minute < 60)
    (hsecond : second < 60) (hnanos : nanos < 1000000000) :
    ofText? (padded 4 year ++ '-' :: padded 2 month ++ '-' :: padded 2 day ++
      'T' :: padded 2 hour ++ ':' :: padded 2 minute ++ ':' :: padded 2 second ++
        fractionText nanos ++ ['Z']) =
      some ⟨CivilDate.toDays ⟨year, month, day⟩ * secondsPerDay +
        (3600 * hour + 60 * minute + second : Nat), nanos⟩ := by
  obtain ⟨hmonth, hday⟩ := CivilDate.lt_of_isValid hvalid
  have hoffset : offset? (skipBlanks ['Z']) = some (0, []) := rfl
  have hclock : decide (hour < 24) = true ∧ decide (minute < 60) = true ∧
      decide (second ≤ 60) = true := by
    simp only [decide_eq_true_eq]
    omega
  have hyears : decide (-262143 ≤ (year : Int)) = true ∧ decide ((year : Int) ≤ 262142) = true := by
    simp only [decide_eq_true_eq]
    omega
  have htime : 3600 * (hour : Int) + 60 * minute + (min second 59 : Nat) - 0 =
      (3600 * hour + 60 * minute + second : Nat) := by
    omega
  simp only [List.append_assoc, List.cons_append]
  rw [ofText?]
  -- Each part leaves to the next one what follows it.
  refine next (year?_padded hyear _) ?_
  refine next (mark?_dash _) (next (number?_padded (by decide) hmonth _) ?_)
  refine next (mark?_dash _) (next (number?_padded (by decide) hday _) ?_)
  refine next rfl (next (number?_padded (by decide) (by omega) _) ?_)
  refine next (mark?_colon _) (next (number?_padded (by decide) (by omega) _) ?_)
  refine next (mark?_colon _) (next (number?_padded (by decide) (by omega) _) ?_)
  refine next (fraction?_fractionText hnanos _) (next hoffset ?_)
  dsimp only
  rw [hvalid, hclock.1, hclock.2.1, hclock.2.2, hyears.1, hyears.2, htime,
    if_neg (Nat.ne_of_lt hsecond)]
  rfl

/-- The instant lies in a year of four digits and not in a leap second. -/
def IsPlain (t : Timestamp) : Prop :=
  0 ≤ (CivilDate.ofDays (t.seconds / secondsPerDay)).year ∧
    (CivilDate.ofDays (t.seconds / secondsPerDay)).year ≤ 9999 ∧ t.nanos < 1000000000

instance (t : Timestamp) : Decidable t.IsPlain := inferInstanceAs (Decidable (_ ∧ _ ∧ _))

theorem length_fractionText_le (h : n < 1000000000) : (fractionText n).length ≤ 10 := by
  unfold fractionText
  split
  · exact Nat.zero_le 10
  · split
    · rw [List.length_cons, length_padded (by decide) (by omega)]
      decide
    · split
      · rw [List.length_cons, length_padded (by decide) (by omega)]
        decide
      · exact Nat.le_of_eq (by rw [List.length_cons, length_padded (by decide) (by omega)])

/-- The longest text of a plain instant has nine digits of fraction. -/
theorem length_text_le {t : Timestamp} (h : t.IsPlain) : t.text.length ≤ 30 := by
  obtain ⟨hpast, hfuture, hnanos⟩ := h
  obtain ⟨hmonth, hday⟩ :=
    CivilDate.lt_of_isValid (CivilDate.isValid_ofDays (t.seconds / secondsPerDay))
  have hsecond : (t.seconds % secondsPerDay).toNat < 86400 := by
    unfold secondsPerDay
    omega
  have hfraction := length_fractionText_le hnanos
  unfold text
  generalize CivilDate.ofDays (t.seconds / secondsPerDay) = date at *
  generalize (t.seconds % secondsPerDay).toNat = second at *
  dsimp only
  rw [yearText, if_pos ⟨hpast, hfuture⟩, if_neg (Nat.not_le.mpr hnanos), Nat.mod_eq_of_lt hnanos]
  simp only [List.length_append, List.length_cons, List.length_nil]
  rw [length_padded (by decide) (by omega), length_padded (by decide) hmonth,
    length_padded (by decide) hday, length_padded (by decide) (by omega),
    length_padded (by decide) (by omega), length_padded (by decide) (by omega)]
  omega

/-- A plain instant is read back from its text. -/
theorem ofText?_text {t : Timestamp} (h : t.IsPlain) : ofText? t.text = some t := by
  obtain ⟨hpast, hfuture, hnanos⟩ := h
  have hvalid := CivilDate.isValid_ofDays (t.seconds / secondsPerDay)
  have hdays := CivilDate.toDays_ofDays (t.seconds / secondsPerDay)
  unfold text
  generalize CivilDate.ofDays (t.seconds / secondsPerDay) = date at *
  obtain ⟨year, month, day⟩ := date
  dsimp only at *
  obtain ⟨year, rfl⟩ := Int.eq_ofNat_of_zero_le hpast
  have hyear : yearText year = padded 4 year := if_pos ⟨hpast, hfuture⟩
  have hsecond : (t.seconds % secondsPerDay).toNat < 86400 := by
    unfold secondsPerDay
    omega
  have hseconds : t.seconds / secondsPerDay * secondsPerDay +
      ((t.seconds % secondsPerDay).toNat : Int) = t.seconds := by
    unfold secondsPerDay
    omega
  generalize (t.seconds % secondsPerDay).toNat = second at *
  have hclock : 3600 * (second / 3600) + 60 * (second / 60 % 60) + second % 60 = second := by
    omega
  rw [hyear, if_neg (Nat.not_le.mpr hnanos), Nat.mod_eq_of_lt hnanos, Nat.add_zero,
    ofText?_parts (by omega) hvalid (by omega) (by omega) (by omega) hnanos, hdays, hclock,
    hseconds]

end Timestamp

end FieldCalculus
