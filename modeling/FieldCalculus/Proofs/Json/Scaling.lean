import FieldCalculus.Proofs.Json.Numeral
import FieldCalculus.Proofs.Precision

/-!
What the reader of JSON makes of a number. The digits and the power of ten are rounded each by
itself, and their product or quotient once more; so the result is a number near to the one that
was written, and that number itself if the first two roundings are exact.
-/

namespace FieldCalculus

/-! ## Signs -/

namespace Number

section Signed

variable {negative : Bool} {word : Nat} (hword : word < 2 ^ 63)

include hword

end Signed

end Number

namespace Json

open Number (Rounds Close InRange unitsPerOne unitsOfWord infinityWord ofMagnitude wordOfNat
  roundUnits nearestWord)

namespace NumberText

/-- A decimal scaled in floating point. -/
def rescaled (d : Decimal) : Number :=
  if d.exponent < 0 then scaleDown (.ofNat d.coefficient) d.exponent.natAbs
  else (Number.ofNat d.coefficient).mul (powerOfTen d.exponent.natAbs)

/-- What is read from the text of a number. -/
def reread (n : Number) : Number :=
  let read := rescaled (asWritten (Decimal.shortest n))
  if n.isNegative then read.neg else read

/-! ## Powers of ten -/

theorem powerOfTen_eq {k : Nat} (hk : k ≤ greatestPower) : powerOfTen k = .ofNat (10 ^ k) := by
  rw [greatestPower] at hk
  have hlength : (toString 1).length = 1 := by decide
  unfold powerOfTen Decimal.toNumber
  dsimp only
  rw [hlength, if_neg (by simp; omega), if_neg (by omega), if_pos (by omega), Int.toNat_natCast,
    Nat.one_mul]
  rfl

/-- The greatest power of ten is in range, and three divided by it is not among the least numbers,
even with two roundings in between. -/
theorem greatestPower_bounds : InRange (10 ^ greatestPower) ∧
    unitsOfWord (2 ^ 52) * (2 ^ 53) ^ 2 * 10 ^ greatestPower ≤
      3 * unitsPerOne * (2 ^ 53 - 1) ^ 2 := by
  unfold InRange
  decide +kernel

theorem inRange_ten_pow {k : Nat} (hk : k ≤ greatestPower) : InRange (10 ^ k) :=
  greatestPower_bounds.1.mono (Nat.pow_le_pow_right (by decide) hk)

theorem inRange_of_lt {c : Nat} (hc : c < UInt64.size) : InRange c :=
  (inRange_ten_pow (by decide : 20 ≤ greatestPower)).mono
    (Nat.le_trans hc.le (by decide : UInt64.size ≤ 10 ^ 20))

theorem isZero_ofNat {c : Nat} (hrange : InRange c) (hpos : 0 < c) :
    (Number.ofNat c).isZero = false :=
  Number.isZero_ofMagnitude ((Number.rounds_wordOfNat hrange).2.trans Number.infinityWord_lt)
    (Number.wordOfNat_pos hrange hpos)

/-! ## One scaling -/

section Scaling

variable {a k roundings : Nat} {value : ℚ}

/-- A number times a power of ten is rounded from two roundings further on, and may turn out too
great. -/
theorem mul_powerOfTen (hk : k ≤ greatestPower) (ha : a < infinityWord.toNat)
    (hclose : Close roundings (unitsOfWord a) (value * unitsPerOne)) : ∃ product word,
      (ofMagnitude false a).mul (powerOfTen k) = ofMagnitude false (min word infinityWord.toNat) ∧
        Rounds product word ∧ Close (roundings + 1) product (value * 10 ^ k * unitsPerOne) := by
  have hunits : (0 : ℚ) < unitsPerOne := by exact_mod_cast Number.unitsPerOne_pos
  have hpower := Number.close_wordOfNat (inRange_ten_pow hk) (Nat.pow_pos (by decide))
  have hproduct := (hclose.mul hpower).div (Close.refl hunits)
  have hvalue : value * unitsPerOne * ((10 ^ k : ℕ) * unitsPerOne) / unitsPerOne =
      value * 10 ^ k * unitsPerOne := by
    rw [← mul_assoc, mul_div_assoc, div_self hunits.ne', mul_one, Nat.cast_pow, Nat.cast_ofNat]
    ring
  rw [hvalue, ← Nat.cast_mul] at hproduct
  refine ⟨_, _, ?_, Number.rounds_nearestWord _ Number.unitsPerOne_pos, hproduct⟩
  rw [powerOfTen_eq hk, Number.ofNat_eq, ← Number.roundUnits_eq_min]
  exact Number.mul_ofMagnitude ha (Number.rounds_wordOfNat (inRange_ten_pow hk)).2

/-- The word of a number divided by a power of ten. -/
def dividedWord (a k : Nat) : Nat :=
  roundUnits (unitsOfWord a * unitsPerOne) (unitsOfWord (wordOfNat (10 ^ k)))

theorem div_powerOfTen (hk : k ≤ greatestPower) (ha : a < infinityWord.toNat) :
    (ofMagnitude false a).div (powerOfTen k) = ofMagnitude false (dividedWord a k) := by
  have hrange := inRange_ten_pow hk
  rw [powerOfTen_eq hk, Number.ofNat_eq]
  exact Number.div_ofMagnitude ha (Number.rounds_wordOfNat hrange).2
    (Number.wordOfNat_pos hrange (Nat.pow_pos (by decide)))

theorem rounds_dividedWord (hk : k ≤ greatestPower) (ha : a < infinityWord.toNat) :
    Rounds ((unitsOfWord a * unitsPerOne : ℕ) / unitsOfWord (wordOfNat (10 ^ k)))
        (dividedWord a k) ∧ dividedWord a k < infinityWord.toNat := by
  have hone := Number.unitsPerOne_le (inRange_ten_pow hk) (Nat.pow_pos (by decide))
  refine Number.rounds_roundUnits (Nat.lt_of_lt_of_le Number.unitsPerOne_pos hone) ?_
  exact Nat.mul_le_mul (Number.unitsOfWord_strictMono.monotone (by omega)) hone

/-- A number divided by a power of ten is rounded from one rounding further on. -/
theorem close_dividedWord (hk : k ≤ greatestPower)
    (hclose : Close roundings (unitsOfWord a) (value * unitsPerOne)) :
    Close (roundings + 1) ((unitsOfWord a * unitsPerOne : ℕ) / unitsOfWord (wordOfNat (10 ^ k)))
      (value / 10 ^ k * unitsPerOne) := by
  have hunits : (0 : ℚ) < unitsPerOne := by exact_mod_cast Number.unitsPerOne_pos
  have hpower := Number.close_wordOfNat (inRange_ten_pow hk) (Nat.pow_pos (by decide))
  have hquotient := (hclose.mul (Close.refl hunits)).div hpower
  have hvalue : value * unitsPerOne * unitsPerOne / ((10 ^ k : ℕ) * unitsPerOne) =
      value / 10 ^ k * unitsPerOne := by
    rw [mul_div_mul_right _ _ hunits.ne', Nat.cast_pow, Nat.cast_ofNat]
    ring
  rwa [hvalue, ← Nat.cast_mul] at hquotient

end Scaling

/-! ## Scaled decimals -/

section Rescaled

variable {c k word : Nat} (hpos : 0 < c) (hc : c < UInt64.size)

include hpos hc

theorem mul_within (hk : k ≤ greatestPower) (h : Rounds (c * 10 ^ k * unitsPerOne) word)
    (hword : word + 3 < infinityWord.toNat) : ∃ other,
      (Number.ofNat c).mul (powerOfTen k) = ofMagnitude false other ∧
        other ≤ word + 3 ∧ word ≤ other + 3 := by
  have hrange := inRange_of_lt hc
  obtain ⟨product, other, hmul, hrounds, hclose⟩ := mul_powerOfTen hk
    (Number.rounds_wordOfNat hrange).2 (Number.close_wordOfNat hrange hpos)
  obtain ⟨hle, hge⟩ := h.within hrounds hclose.symm (by decide)
  rw [Nat.min_eq_left (by omega)] at hmul
  exact ⟨other, hmul, hle, hge⟩

theorem div_within (hk : k ≤ greatestPower) (h : Rounds (c / 10 ^ k * unitsPerOne) word) :
    ∃ other < infinityWord.toNat,
      (Number.ofNat c).div (powerOfTen k) = ofMagnitude false other ∧
        other ≤ word + 3 ∧ word ≤ other + 3 := by
  have hrange := inRange_of_lt hc
  have hword := (Number.rounds_wordOfNat hrange).2
  obtain ⟨hrounds, hfinite⟩ := rounds_dividedWord hk hword
  have hclose := close_dividedWord hk (Number.close_wordOfNat hrange hpos)
  obtain ⟨hle, hge⟩ := h.within hrounds hclose.symm (by decide)
  exact ⟨_, hfinite, div_powerOfTen hk hword, hle, hge⟩

omit hpos in
/-- From three up, digits divided by the greatest power of ten still have all their bits. -/
theorem divided_twice_within (hmore : 3 ≤ c) (hk : k ≤ greatestPower)
    (h : Rounds (c / 10 ^ (greatestPower + k) * unitsPerOne) word) :
    dividedWord (dividedWord (wordOfNat c) greatestPower) k ≤ word + 5 ∧
      word ≤ dividedWord (dividedWord (wordOfNat c) greatestPower) k + 5 := by
  have hrange := inRange_of_lt hc
  obtain ⟨hbetween, hfinite⟩ :=
    rounds_dividedWord (Nat.le_refl _) (Number.rounds_wordOfNat hrange).2
  have hnear := close_dividedWord (Nat.le_refl _)
    (Number.close_wordOfNat hrange (by omega : 0 < c))
  have hnormal : 2 ^ 52 ≤ dividedWord (wordOfNat c) greatestPower := by
    have hpower : (0 : ℚ) < 10 ^ greatestPower := by positivity
    have hsquare : (0 : ℚ) < (2 ^ 53) ^ 2 := by norm_num
    have hleast : (unitsOfWord (2 ^ 52) : ℚ) * (2 ^ 53) ^ 2 * 10 ^ greatestPower ≤
        3 * unitsPerOne * (2 ^ 53 - 1) ^ 2 := by
      have hcast := (Nat.cast_le (α := ℚ)).mpr greatestPower_bounds.2
      rw [Nat.cast_mul, Nat.cast_mul, Nat.cast_mul, Nat.cast_mul, Nat.cast_pow, Nat.cast_pow]
        at hcast
      norm_num at hcast ⊢
      exact hcast
    have hmore' : (3 : ℚ) ≤ c := by exact_mod_cast hmore
    refine hbetween.le_of_ge (le_of_mul_le_mul_right ?_ hsquare)
    refine le_trans ?_ hnear.ge
    rw [div_mul_eq_mul_div, div_mul_eq_mul_div, le_div_iff₀ hpower]
    refine hleast.trans (mul_le_mul_of_nonneg_right ?_ (by norm_num))
    exact mul_le_mul_of_nonneg_right hmore' (Nat.cast_nonneg _)
  have hclose := close_dividedWord hk ((hbetween.close hnormal).trans hnear)
  rw [div_div, ← pow_add] at hclose
  exact h.within (rounds_dividedWord hk hfinite).1 hclose.symm (by decide)

omit hpos hc in
/-- Below three, digits divided by the greatest power of ten lose some of their bits; but then
few bits are left of the quotient anyway. -/
theorem divided_twice_of_lt : ∀ c ∈ [1, 2], ∀ k ∈ List.range 37,
    let read := dividedWord (dividedWord (wordOfNat c) greatestPower) k
    let word := nearestWord (c * unitsPerOne) (10 ^ (greatestPower + k))
    read ≤ word + 5 ∧ word ≤ read + 5 := by decide +kernel

theorem div_div_within (hk : k < 37)
    (h : Rounds (c / 10 ^ (greatestPower + k) * unitsPerOne) word) :
    ∃ other < infinityWord.toNat,
      ((Number.ofNat c).div (powerOfTen greatestPower)).div (powerOfTen k) =
          ofMagnitude false other ∧
        other ≤ word + 5 ∧ word ≤ other + 5 := by
  have hgreatest : greatestPower = 308 := rfl
  have hword := (Number.rounds_wordOfNat (inRange_of_lt hc)).2
  obtain ⟨-, hfirst⟩ := rounds_dividedWord (Nat.le_refl _) hword
  obtain ⟨-, hsecond⟩ := rounds_dividedWord (by omega : k ≤ greatestPower) hfirst
  refine ⟨_, hsecond, ?_, ?_⟩
  · rw [Number.ofNat_eq, div_powerOfTen (Nat.le_refl _) hword, div_powerOfTen (by omega) hfirst]
  · rcases Nat.lt_or_ge c 3 with hless | hmore
    · have hpower : 0 < 10 ^ (greatestPower + k) := Nat.pow_pos (by decide)
      have hnearest := Number.rounds_nearestWord (c * unitsPerOne) hpower
      rw [Nat.cast_mul, Nat.cast_pow, Nat.cast_ofNat, mul_div_right_comm] at hnearest
      rw [h.unique hnearest]
      exact divided_twice_of_lt c (by simp; omega) k (List.mem_range.mpr hk)
    · exact divided_twice_within hc hmore (by omega) h

end Rescaled

theorem scaleDown_of_le {value : Number} {k : Nat} (hpos : 0 < k) (hk : k ≤ greatestPower) :
    scaleDown value k = value.div (powerOfTen k) := by
  have htimes : (k - 1) / greatestPower = 0 := Nat.div_eq_of_lt (by omega)
  unfold scaleDown
  dsimp only
  rw [htimes, Nat.zero_mul, Nat.sub_zero]
  rfl

theorem scaleDown_of_lt {value : Number} {k : Nat} (hpos : 0 < k) (hk : k ≤ greatestPower)
    (hzero : value.isZero = false) : scaleDown value (greatestPower + k) =
      (value.div (powerOfTen greatestPower)).div (powerOfTen k) := by
  have htimes : (greatestPower + k - 1) / greatestPower = 1 := by
    rw [greatestPower] at hk ⊢
    omega
  unfold scaleDown
  dsimp only
  rw [htimes, Nat.one_mul, Nat.add_sub_cancel_left, divideByGreatest,
    if_neg (by rw [hzero]; decide)]
  rfl

/-- A decimal is scaled to a number near to the one that it belongs to. -/
theorem rescaled_within {d : Decimal} {word : Nat} (hpos : 0 < d.coefficient)
    (hc : d.coefficient < UInt64.size) (hlow : -344 ≤ d.exponent) (hhigh : d.exponent ≤ 308)
    (hword : 0 ≤ d.exponent → word + 3 < infinityWord.toNat)
    (h : Rounds (d.value * unitsPerOne) word) : ∃ other < infinityWord.toNat,
      rescaled d = ofMagnitude false other ∧ other ≤ word + 5 ∧ word ≤ other + 5 := by
  have hgreatest : greatestPower = 308 := rfl
  obtain ⟨c, e⟩ := d
  unfold Decimal.value at h
  dsimp only at *
  rcases Int.lt_or_le e 0 with hnegative | hnonneg
  · obtain ⟨k, rfl⟩ : ∃ k : Nat, e = -k := ⟨e.natAbs, by omega⟩
    rw [zpow_neg, zpow_natCast, ← div_eq_mul_inv] at h
    have hscaled : rescaled ⟨c, -k⟩ = scaleDown (.ofNat c) k := by
      rw [rescaled, if_pos hnegative, Int.natAbs_neg, Int.natAbs_natCast]
    rw [hscaled]
    rcases Nat.lt_or_ge greatestPower k with hbeyond | hk
    · obtain ⟨more, rfl⟩ : ∃ more, k = greatestPower + (more + 1) :=
        ⟨k - greatestPower - 1, by omega⟩
      have hrange := inRange_of_lt hc
      rw [scaleDown_of_lt (by omega) (by omega) (isZero_ofNat hrange hpos)]
      exact div_div_within hpos hc (by omega) h
    · rw [scaleDown_of_le (by omega) hk]
      obtain ⟨other, hfinite, hdiv, hle, hge⟩ := div_within hpos hc hk h
      exact ⟨other, hfinite, hdiv, by omega, by omega⟩
  · obtain ⟨k, rfl⟩ := Int.eq_ofNat_of_zero_le hnonneg
    rw [zpow_natCast] at h
    have hscaled : rescaled ⟨c, k⟩ = (Number.ofNat c).mul (powerOfTen k) := by
      rw [rescaled, if_neg (Int.not_lt.mpr hnonneg), Int.natAbs_natCast]
    have hbelow := hword hnonneg
    obtain ⟨other, hmul, hle, hge⟩ := mul_within hpos hc (by omega) h hbelow
    rw [hscaled]
    exact ⟨other, by omega, hmul, by omega, by omega⟩

/-! ## Exact scaling -/

section Reread

variable {n : Number} (hfinite : n.isFinite)

theorem shortest_ofMagnitude (n : Number) :
    Decimal.shortest (ofMagnitude false n.magnitude.toNat) = Decimal.shortest n := by
  unfold Decimal.shortest Number.units
  rw [Number.magnitude_ofMagnitude n.magnitude_lt]

theorem rescaled_zero : rescaled (asWritten ⟨0, 0⟩) = ofMagnitude false 0 := by
  have hwritten : asWritten ⟨0, 0⟩ = ⟨0, -1⟩ := rfl
  have hscaled : rescaled ⟨0, -1⟩ = scaleDown (.ofNat 0) 1 := if_pos (by decide)
  have hword : wordOfNat 0 = 0 := by rw [wordOfNat, Nat.zero_mul, Number.roundUnits_zero]
  have hunits : unitsOfWord 0 = 0 := rfl
  rw [hwritten, hscaled, scaleDown_of_le (by decide) (by decide), Number.ofNat_eq, hword,
    div_powerOfTen (by decide) (by decide), dividedWord, hunits, Nat.zero_mul,
    Number.roundUnits_zero]

/-- The digits of the three greatest numbers might be rounded beyond all numbers. -/
theorem greatest_within : ∀ k < 4, 0 < k →
    let read := rescaled (asWritten (Decimal.shortest
      (ofMagnitude false (infinityWord.toNat - k))))
    read.bits.toNat < infinityWord.toNat ∧ read = ofMagnitude false read.bits.toNat ∧
      read.bits.toNat ≤ infinityWord.toNat - k + 5 ∧
        infinityWord.toNat - k ≤ read.bits.toNat + 5 := by decide +kernel

include hfinite

theorem magnitude_lt_infinity : n.magnitude.toNat < infinityWord.toNat := by
  rw [Number.isFinite, decide_eq_true_eq, UInt64.lt_iff_toNat_lt] at hfinite
  exact hfinite

omit hfinite in
theorem shortest_of_zero (hzero : n.magnitude.toNat = 0) : Decimal.shortest n = ⟨0, 0⟩ := by
  unfold Decimal.shortest
  dsimp only
  rw [if_pos hzero]

/-- The digits of a number are few, and not far from the point. -/
theorem shortest_bounds : (Decimal.shortest n).coefficient < UInt64.size ∧
    -324 ≤ (Decimal.shortest n).exponent +
        (Nat.toDigits 10 (Decimal.shortest n).coefficient).length ∧
      (Decimal.shortest n).exponent +
        (Nat.toDigits 10 (Decimal.shortest n).coefficient).length ≤ 309 := by
  rcases Nat.eq_zero_or_pos n.magnitude.toNat with hzero | hpos
  · rw [shortest_of_zero hzero]
    decide
  · have hrounds := Decimal.rounds_shortest hfinite hpos
    have hsome := Decimal.coefficient_pos hpos hrounds
    rw [← Decimal.length_toString]
    exact ⟨Decimal.coefficient_shortest_lt hfinite hpos,
      Decimal.le_length_of_rounds hpos hrounds,
      Decimal.length_le_of_rounds hsome (magnitude_lt_infinity hfinite) hrounds⟩

theorem rounds_asWritten (hpos : 0 < n.magnitude.toNat) :
    Rounds ((asWritten (Decimal.shortest n)).value * unitsPerOne) n.magnitude.toNat := by
  rw [value_asWritten]
  exact Decimal.rounds_shortest hfinite hpos

theorem exponent_bounds : -344 ≤ (asWritten (Decimal.shortest n)).exponent ∧
    (asWritten (Decimal.shortest n)).exponent ≤ 308 := by
  obtain ⟨hsmall, hlow, hhigh⟩ := shortest_bounds hfinite
  have hexponent := exponent_asWritten (Decimal.shortest n)
  have hlength := length_toDigits_le hsmall
  have hsome := Nat.length_toDigits_pos (b := 10) (n := (Decimal.shortest n).coefficient)
  omega

theorem exists_rescaled : ∃ other < infinityWord.toNat,
    rescaled (asWritten (Decimal.shortest n)) = ofMagnitude false other ∧
      other ≤ n.magnitude.toNat + 5 ∧ n.magnitude.toNat ≤ other + 5 := by
  have hword := magnitude_lt_infinity hfinite
  rcases Nat.eq_zero_or_pos n.magnitude.toNat with hzero | hpos
  · rw [shortest_of_zero hzero, rescaled_zero, hzero]
    exact ⟨0, by omega, rfl, by omega, by omega⟩
  · by_cases hgreat : n.magnitude.toNat + 3 < infinityWord.toNat
    · obtain ⟨hlow, hhigh⟩ := exponent_bounds hfinite
      have hrounds := rounds_asWritten hfinite hpos
      exact rescaled_within (Decimal.coefficient_pos hpos hrounds)
        (coefficient_asWritten_lt (Decimal.coefficient_shortest_lt hfinite hpos)) hlow hhigh
        (fun _ => hgreat) hrounds
    · obtain ⟨k, hk⟩ : ∃ k, n.magnitude.toNat = infinityWord.toNat - k ∧ k < 4 ∧ 0 < k :=
        ⟨infinityWord.toNat - n.magnitude.toNat, by omega, by omega, by omega⟩
      rw [← shortest_ofMagnitude, hk.1]
      obtain ⟨hless, hread, hnear⟩ := greatest_within k hk.2.1 hk.2.2
      exact ⟨_, hless, hread, hnear⟩

/-- The reader scales the digits of every finite number to a number in range. -/
theorem scale_asWritten : scale (asWritten (Decimal.shortest n)).coefficient
    (asWritten (Decimal.shortest n)).exponent =
      some (rescaled (asWritten (Decimal.shortest n))) := by
  by_cases hnegative : (asWritten (Decimal.shortest n)).exponent < 0
  · unfold scale rescaled
    dsimp only
    rw [if_pos hnegative, if_pos hnegative]
  · have hpos : 0 < n.magnitude.toNat := by
      by_contra hzero
      rw [shortest_of_zero (Nat.eq_zero_of_not_pos hzero)] at hnegative
      exact hnegative (by decide)
    have hsome := Decimal.coefficient_pos hpos (rounds_asWritten hfinite hpos)
    have hrange := inRange_of_lt
      (coefficient_asWritten_lt (Decimal.coefficient_shortest_lt hfinite hpos))
    have hzero := isZero_ofNat hrange hsome
    obtain ⟨-, hhigh⟩ := exponent_bounds hfinite
    have hgreatest : greatestPower = 308 := rfl
    obtain ⟨other, hless, hread, -⟩ := exists_rescaled hfinite
    have hinfinite := Number.isInfinite_ofMagnitude hless
    rw [← hread] at hinfinite
    unfold scale
    unfold rescaled at hinfinite ⊢
    dsimp only
    rw [if_neg hnegative] at hinfinite ⊢
    rw [if_neg hnegative, hzero, if_neg (by decide), if_neg (by omega), hinfinite,
      if_neg (by decide)]

/-- A number is read from its text. -/
theorem float?_shortest :
    (ofDecimal n.isNegative (Decimal.shortest n)).float? = some (reread n) := by
  obtain ⟨hsmall, hlow, hhigh⟩ := shortest_bounds hfinite
  rw [float?_ofDecimal _ hsmall hlow hhigh, scale_asWritten hfinite]
  rfl

theorem document_shortest :
    (ofDecimal n.isNegative (Decimal.shortest n)).document = .number (reread n) := by
  have hparts : ((ofDecimal n.isNegative (Decimal.shortest n)).fraction.isNone &&
      (ofDecimal n.isNegative (Decimal.shortest n)).exponent.isNone) = false := by
    unfold ofDecimal
    dsimp only
    split_ifs <;> rfl
  unfold document
  dsimp only
  rw [hparts, float?_shortest hfinite]
  rfl

end Reread

end NumberText

end Json

end FieldCalculus
