import FieldCalculus.Proofs.Rounding
import Mathlib.Tactic.IntervalCases
import Mathlib.Tactic.NormNum
import Mathlib.Tactic.Positivity
import Mathlib.Tactic.Ring

/-!
How far roundings lead away from a value. Each rounding to a number with all its bits changes a
value by no more than one part in `2 ^ 53`; products and quotients add up the roundings of their
parts. Nothing is rounded beyond a number that it did not exceed, so whole bounds of the parts bound
what is computed from them.
-/

namespace FieldCalculus.Number

/-! ## Rounding and order -/

namespace Rounds

variable {value : ℚ} {word other : Nat}

theorem le_of_le (h : Rounds value word) (hle : value ≤ unitsOfWord other) : word ≤ other := by
  by_contra hless
  have hbelow : unitsOfWord other ≤ unitsOfWord (word - 1) :=
    unitsOfWord_strictMono.monotone (by omega)
  have hword : unitsOfWord other < unitsOfWord word := unitsOfWord_strictMono (by omega)
  have hbelow' : (unitsOfWord other : ℚ) ≤ unitsOfWord (word - 1) := by exact_mod_cast hbelow
  have hword' : (unitsOfWord other : ℚ) < unitsOfWord word := by exact_mod_cast hword
  have hlow := h.low
  linarith

theorem le_of_ge (h : Rounds value word) (hle : (unitsOfWord other : ℚ) ≤ value) :
    other ≤ word := by
  by_contra hless
  have habove : unitsOfWord (word + 1) ≤ unitsOfWord other :=
    unitsOfWord_strictMono.monotone (by omega)
  have hword : unitsOfWord word < unitsOfWord other := unitsOfWord_strictMono (by omega)
  have habove' : (unitsOfWord (word + 1) : ℚ) ≤ unitsOfWord other := by exact_mod_cast habove
  have hword' : (unitsOfWord word : ℚ) < unitsOfWord other := by exact_mod_cast hword
  have hhigh := h.high
  linarith

end Rounds

/-! ## Roundings between values -/

/-- Two positive values with so many roundings between them. -/
structure Close (roundings : Nat) (a b : ℚ) : Prop where
  pos : 0 < a
  pos' : 0 < b
  le : a * (2 ^ 53 - 1) ^ roundings ≤ b * (2 ^ 53) ^ roundings
  ge : b * (2 ^ 53 - 1) ^ roundings ≤ a * (2 ^ 53) ^ roundings

namespace Close

variable {i j : Nat} {a b c d : ℚ}

theorem refl (h : 0 < a) : Close 0 a a := ⟨h, h, by simp, by simp⟩

theorem symm (h : Close i a b) : Close i b a := ⟨h.pos', h.pos, h.ge, h.le⟩

theorem mul_le (hpos : 0 ≤ a) (hpos' : 0 ≤ d) (h : a * (2 ^ 53 - 1) ^ i ≤ b * (2 ^ 53) ^ i)
    (h' : c * (2 ^ 53 - 1) ^ j ≤ d * (2 ^ 53) ^ j) :
    a * c * (2 ^ 53 - 1) ^ (i + j) ≤ b * d * (2 ^ 53) ^ (i + j) := by
  have hleft : (0 : ℚ) ≤ a * (2 ^ 53 - 1) ^ i := mul_nonneg hpos (pow_nonneg (by norm_num) _)
  have hright : (0 : ℚ) ≤ d * (2 ^ 53) ^ j := mul_nonneg hpos' (by positivity)
  calc a * c * (2 ^ 53 - 1) ^ (i + j)
      = a * (2 ^ 53 - 1) ^ i * (c * (2 ^ 53 - 1) ^ j) := by rw [pow_add]; ring
    _ ≤ a * (2 ^ 53 - 1) ^ i * (d * (2 ^ 53) ^ j) := mul_le_mul_of_nonneg_left h' hleft
    _ ≤ b * (2 ^ 53) ^ i * (d * (2 ^ 53) ^ j) := mul_le_mul_of_nonneg_right h hright
    _ = b * d * (2 ^ 53) ^ (i + j) := by rw [pow_add]; ring

theorem mul (h : Close i a b) (h' : Close j c d) : Close (i + j) (a * c) (b * d) :=
  ⟨mul_pos h.pos h'.pos, mul_pos h.pos' h'.pos', mul_le h.pos.le h'.pos'.le h.le h'.le,
    mul_le h.pos'.le h'.pos.le h.ge h'.ge⟩

theorem inv_le (ha : 0 < a) (hb : 0 < b) (h : b * (2 ^ 53 - 1) ^ i ≤ a * (2 ^ 53) ^ i) :
    a⁻¹ * (2 ^ 53 - 1) ^ i ≤ b⁻¹ * (2 ^ 53) ^ i := by
  rw [inv_mul_eq_div, inv_mul_eq_div, div_le_div_iff₀ ha hb, mul_comm, mul_comm _ a]
  exact h

theorem inv (h : Close i a b) : Close i a⁻¹ b⁻¹ :=
  ⟨inv_pos.mpr h.pos, inv_pos.mpr h.pos', inv_le h.pos h.pos' h.ge, inv_le h.pos' h.pos h.le⟩

theorem div (h : Close i a b) (h' : Close j c d) : Close (i + j) (a / c) (b / d) := by
  rw [div_eq_mul_inv, div_eq_mul_inv]
  exact h.mul h'.inv

theorem trans (h : Close i a b) (h' : Close j b c) : Close (i + j) a c := by
  have hb := h.pos'.ne'
  have hproduct := (h.mul h').div (refl h.pos')
  rwa [mul_div_assoc, div_self hb, mul_one, mul_comm, mul_div_assoc, div_self hb, mul_one]
    at hproduct

end Close

/-! ## One rounding -/

/-- From a number with all its bits to the next ones it is one part in `2 ^ 52` at most. -/
theorem step_le_of_normal {word : Nat} (hword : 2 ^ 52 ≤ word) :
    (2 ^ 52 - 1) * unitsOfWord word ≤ 2 ^ 52 * unitsOfWord (word - 1) ∧
      2 ^ 52 * unitsOfWord (word + 1) ≤ (2 ^ 52 + 1) * unitsOfWord word := by
  obtain ⟨shift, leading, rfl, hleading, hnormal⟩ := exists_leading word
  have hmost : 2 ^ 52 ≤ leading := by omega
  have hunits := unitsOfWord_leading hnormal hleading.le
  constructor
  · have hbelow : (leading - 1) * 2 ^ shift ≤ unitsOfWord (shift * 2 ^ 52 + leading - 1) := by
      by_cases hmore : shift = 0 ∨ 2 ^ 52 < leading
      · rw [unitsOfWord_pred hleading.le (by omega) hmore]
      · obtain rfl : leading = 2 ^ 52 := by omega
        obtain ⟨lower, rfl⟩ : ∃ lower, shift = lower + 1 := ⟨shift - 1, by omega⟩
        have hdouble : 2 ^ (lower + 1) = 2 ^ lower * 2 := pow_succ 2 lower
        rw [unitsOfWord_pred_least, hdouble]
        omega
    calc (2 ^ 52 - 1) * unitsOfWord (shift * 2 ^ 52 + leading)
        = (2 ^ 52 - 1) * leading * 2 ^ shift := by rw [hunits, Nat.mul_assoc]
      _ ≤ 2 ^ 52 * (leading - 1) * 2 ^ shift := Nat.mul_le_mul_right _ (by omega)
      _ ≤ 2 ^ 52 * unitsOfWord (shift * 2 ^ 52 + leading - 1) := by
          rw [Nat.mul_assoc]
          exact Nat.mul_le_mul_left _ hbelow
  · rw [Nat.add_assoc, unitsOfWord_leading (Or.inr (by omega)) hleading, hunits, ← Nat.mul_assoc,
      ← Nat.mul_assoc]
    exact Nat.mul_le_mul_right _ (by omega)

/-- A rounding to a number with all its bits. -/
theorem Rounds.close {value : ℚ} {word : Nat} (h : Rounds value word) (hword : 2 ^ 52 ≤ word) :
    Close 1 (unitsOfWord word) value := by
  obtain ⟨hbelow, habove⟩ := step_le_of_normal hword
  have hbelow' : ((2 ^ 52 - 1 : ℕ) : ℚ) * unitsOfWord word ≤
      2 ^ 52 * unitsOfWord (word - 1) := by exact_mod_cast hbelow
  have habove' : (2 ^ 52 : ℚ) * unitsOfWord (word + 1) ≤ (2 ^ 52 + 1) * unitsOfWord word := by
    exact_mod_cast habove
  have hunits : 0 < unitsOfWord word :=
    Nat.lt_of_le_of_lt (Nat.zero_le _) (unitsOfWord_strictMono (by omega : 0 < word))
  have hunits' : (0 : ℚ) < unitsOfWord word := by exact_mod_cast hunits
  have hnonneg : (0 : ℚ) ≤ unitsOfWord (word - 1) := Nat.cast_nonneg _
  have hlow := h.low
  have hhigh := h.high
  have hcast : ((2 ^ 52 - 1 : ℕ) : ℚ) = 2 ^ 52 - 1 := by norm_num
  rw [hcast] at hbelow'
  refine ⟨hunits', by linarith, ?_, ?_⟩
  · rw [pow_one, pow_one]
    linarith
  · rw [pow_one, pow_one]
    linarith

/-! ## Numbers of close values -/

/-- So many words further the value has grown by as many steps at least. -/
theorem le_unitsOfWord_add {shift leading : Nat} (hnormal : shift = 0 ∨ 2 ^ 52 ≤ leading)
    (hleading : leading ≤ 2 ^ 53) : ∀ more ≤ 2 ^ 52,
      (leading + more) * 2 ^ shift ≤ unitsOfWord (shift * 2 ^ 52 + leading + more) := by
  intro more hmore
  rw [Nat.add_assoc]
  rcases Nat.le_total (leading + more) (2 ^ 53) with hfits | hcarry
  · rw [unitsOfWord_leading (by omega) hfits]
  · obtain ⟨extra, hextra⟩ := Nat.exists_eq_add_of_le hcarry
    have hword : shift * 2 ^ 52 + (leading + more) = (shift + 1) * 2 ^ 52 + (2 ^ 52 + extra) := by
      omega
    have hdouble : 2 ^ (shift + 1) = 2 * 2 ^ shift := Nat.pow_succ'
    rw [hword, unitsOfWord_leading (Or.inr (by omega)) (by omega), hextra, hdouble, ← Nat.mul_assoc]
    exact Nat.mul_le_mul_right _ (by omega)

section Within

variable {a b : ℚ} {word other roundings : Nat}

theorem Rounds.le_of_close (h : Rounds a word) (hclose : Close roundings a b)
    (hroundings : roundings ≤ 4) : b ≤ unitsOfWord (word + (roundings + 1)) := by
  obtain ⟨shift, leading, rfl, hleading, hnormal⟩ := exists_leading word
  have hmore := le_unitsOfWord_add hnormal hleading.le (roundings + 1) (by omega)
  have hmore' : ((leading + (roundings + 1) : ℕ) : ℚ) * 2 ^ shift ≤
      unitsOfWord (shift * 2 ^ 52 + leading + (roundings + 1)) := by exact_mod_cast hmore
  refine le_trans ?_ hmore'
  have hhigh := h.high
  rw [Nat.add_assoc, unitsOfWord_leading hnormal hleading.le,
    unitsOfWord_leading (hnormal.imp_right Nat.le_succ_of_le) hleading] at hhigh
  have hstep : (0 : ℚ) < 2 ^ shift := by positivity
  have hleading' : (leading : ℚ) + 1 ≤ 2 ^ 53 := by exact_mod_cast hleading
  -- what the roundings add is less than a step each, and half a step is left
  have hpowers : (2 * leading + 1 : ℚ) * (2 ^ 53) ^ roundings ≤
      2 * (leading + (roundings + 1)) * (2 ^ 53 - 1) ^ roundings := by
    interval_cases roundings <;> norm_num at hleading' ⊢ <;> linarith
  have hfactor : (0 : ℚ) < (2 ^ 53 - 1) ^ roundings := pow_pos (by norm_num) _
  have hvalue : 2 * a ≤ (2 * leading + 1) * 2 ^ shift := by
    push_cast at hhigh
    linarith
  refine le_of_mul_le_mul_right ?_ hfactor
  have hdouble : 2 * (b * (2 ^ 53 - 1) ^ roundings) ≤
      2 * (((leading + (roundings + 1) : ℕ) : ℚ) * 2 ^ shift * (2 ^ 53 - 1) ^ roundings) := by
    calc 2 * (b * (2 ^ 53 - 1) ^ roundings) ≤ 2 * (a * (2 ^ 53) ^ roundings) := by
          linarith [hclose.ge]
      _ = 2 * a * (2 ^ 53) ^ roundings := by ring
      _ ≤ (2 * leading + 1) * 2 ^ shift * (2 ^ 53) ^ roundings :=
          mul_le_mul_of_nonneg_right hvalue (by positivity)
      _ = (2 * leading + 1) * (2 ^ 53) ^ roundings * 2 ^ shift := by ring
      _ ≤ 2 * (leading + (roundings + 1)) * (2 ^ 53 - 1) ^ roundings * 2 ^ shift :=
          mul_le_mul_of_nonneg_right hpowers hstep.le
      _ = _ := by
          push_cast
          ring
  linarith

/-- Two values with few roundings between them belong to numbers with few words between them. -/
theorem Rounds.within (h : Rounds a word) (hother : Rounds b other) (hclose : Close roundings a b)
    (hroundings : roundings ≤ 4) :
    other ≤ word + (roundings + 1) ∧ word ≤ other + (roundings + 1) :=
  ⟨hother.le_of_le (h.le_of_close hclose hroundings),
    h.le_of_le (hother.le_of_close hclose.symm hroundings)⟩

end Within

theorem roundUnits_zero (den : Nat) : roundUnits 0 den = 0 := by
  simp [roundUnits, roundDiv]

/-! ## Whole numbers -/

/-- Values up to the greatest number are rounded to a finite one. -/
theorem rounds_roundUnits {num den : Nat} (hden : 0 < den)
    (hle : num ≤ unitsOfWord (infinityWord.toNat - 1) * den) :
    Rounds (num / den) (roundUnits num den) ∧ roundUnits num den < infinityWord.toNat := by
  have hinfinity : infinityWord.toNat = 2047 * 2 ^ 52 := rfl
  have hrounds := rounds_nearestWord num hden
  have hden' : (0 : ℚ) < den := by exact_mod_cast hden
  have hvalue : (num : ℚ) / den ≤ unitsOfWord (infinityWord.toNat - 1) := by
    rw [div_le_iff₀ hden']
    exact_mod_cast hle
  have hword := hrounds.le_of_le hvalue
  rw [roundUnits_eq_min, Nat.min_eq_left (by omega)]
  exact ⟨hrounds, by omega⟩

/-- Whether a whole number is no greater than the greatest number that is finite. -/
def InRange (n : Nat) : Prop := n * unitsPerOne ≤ unitsOfWord (infinityWord.toNat - 1)

theorem InRange.mono {m n : Nat} (h : InRange n) (hle : m ≤ n) : InRange m :=
  (Nat.mul_le_mul_right _ hle).trans h

section InRange

variable {n : Nat} (hn : InRange n)

include hn

/-- Whole numbers in range are rounded once. -/
theorem rounds_wordOfNat :
    Rounds (n * unitsPerOne) (wordOfNat n) ∧ wordOfNat n < infinityWord.toNat := by
  have hle : n * unitsPerOne ≤ unitsOfWord (infinityWord.toNat - 1) * 1 := by
    rw [Nat.mul_one]
    exact hn
  have hrounds := rounds_roundUnits (by decide : 0 < 1) hle
  rwa [Nat.cast_one, div_one, Nat.cast_mul] at hrounds

theorem wordOfNat_one_le (hpos : 0 < n) : wordOfNat 1 ≤ wordOfNat n := by
  have hone := (wordOfNat_spec (by decide : 1 ≤ 2 ^ 53)).2
  have hvalue : unitsOfWord (wordOfNat 1) ≤ n * unitsPerOne := by
    rw [hone]
    exact Nat.mul_le_mul_right _ hpos
  have hvalue' : (unitsOfWord (wordOfNat 1) : ℚ) ≤ n * unitsPerOne := by exact_mod_cast hvalue
  exact (rounds_wordOfNat hn).1.le_of_ge hvalue'

theorem normal_wordOfNat (hpos : 0 < n) : 2 ^ 52 ≤ wordOfNat n := by
  have hone := (wordOfNat_spec (by decide : 1 ≤ 2 ^ 53)).2
  have hshift : ∀ more, 2 ^ 52 ≤ 1 <<< (52 + more) := by
    intro more
    rw [Nat.shiftLeft_eq, Nat.one_mul]
    exact Nat.pow_le_pow_right (by decide) (Nat.le_add_right 52 more)
  have hleast : unitsOfWord (2 ^ 52) ≤ unitsPerOne := hshift 1022
  rw [← Nat.one_mul unitsPerOne, ← hone] at hleast
  exact (unitsOfWord_strictMono.le_iff_le.mp hleast).trans (wordOfNat_one_le hn hpos)

theorem wordOfNat_pos (hpos : 0 < n) : 0 < wordOfNat n :=
  Nat.lt_of_lt_of_le (by decide) (normal_wordOfNat hn hpos)

theorem close_wordOfNat (hpos : 0 < n) :
    Close 1 (unitsOfWord (wordOfNat n)) (n * unitsPerOne) :=
  (rounds_wordOfNat hn).1.close (normal_wordOfNat hn hpos)

theorem unitsPerOne_le (hpos : 0 < n) : unitsPerOne ≤ unitsOfWord (wordOfNat n) := by
  have hone := (wordOfNat_spec (by decide : 1 ≤ 2 ^ 53)).2
  rw [Nat.one_mul] at hone
  rw [← hone]
  exact unitsOfWord_strictMono.monotone (wordOfNat_one_le hn hpos)

end InRange

/-! ## Sums, products and quotients -/

section Operations

variable {a b : Nat} (ha : a < infinityWord.toNat) (hb : b < infinityWord.toNat)

theorem units_ofMagnitude (ha : a < 2 ^ 63) : (ofMagnitude false a).units = unitsOfWord a := by
  rw [units, magnitude_ofMagnitude ha]

theorem isNaN_ofMagnitude (ha : a ≤ infinityWord.toNat) : (ofMagnitude false a).isNaN = false := by
  rw [isNaN, decide_eq_false_iff_not, UInt64.lt_iff_toNat_lt,
    magnitude_ofMagnitude (ha.trans_lt infinityWord_lt)]
  omega

theorem isInfinite_ofMagnitude (ha : a < infinityWord.toNat) :
    (ofMagnitude false a).isInfinite = false := by
  rw [isInfinite, beq_eq_false_iff_ne]
  intro hinfinite
  have hword := congrArg UInt64.toNat hinfinite
  rw [magnitude_ofMagnitude (ha.trans infinityWord_lt)] at hword
  omega

theorem isZero_ofMagnitude (ha : a < 2 ^ 63) (hpos : 0 < a) :
    (ofMagnitude false a).isZero = false := by
  rw [isZero, beq_eq_false_iff_ne]
  intro hzero
  have hword := congrArg UInt64.toNat hzero
  rw [magnitude_ofMagnitude ha, UInt64.toNat_zero] at hword
  omega

include ha hb

theorem add_ofMagnitude : (ofMagnitude false a).add (ofMagnitude false b) =
    ofMagnitude false (roundUnits (unitsOfWord a + unitsOfWord b) 1) := by
  have ha' := ha.trans infinityWord_lt
  have hb' := hb.trans infinityWord_lt
  simp only [add, isNaN_ofMagnitude ha.le, isNaN_ofMagnitude hb.le, isInfinite_ofMagnitude ha,
    isInfinite_ofMagnitude hb, signedUnits, isNegative_ofMagnitude ha', isNegative_ofMagnitude hb',
    units_ofMagnitude ha', units_ofMagnitude hb', Bool.or_self, Bool.false_eq_true, if_false,
    ← Int.natCast_add, Int.natAbs_natCast]
  generalize unitsOfWord a + unitsOfWord b = sum
  rcases Nat.eq_zero_or_pos sum with rfl | hpos
  · rw [roundUnits_zero]
    rfl
  · have hnonzero : (sum : Int) ≠ 0 := by omega
    have hnonneg : ¬(sum : Int) < 0 := by omega
    simp only [if_neg hnonzero, decide_eq_false hnonneg]

theorem mul_ofMagnitude : (ofMagnitude false a).mul (ofMagnitude false b) =
    ofMagnitude false (roundUnits (unitsOfWord a * unitsOfWord b) unitsPerOne) := by
  have ha' := ha.trans infinityWord_lt
  have hb' := hb.trans infinityWord_lt
  rw [mul, isNaN_ofMagnitude ha.le, isNaN_ofMagnitude hb.le, isInfinite_ofMagnitude ha,
    isInfinite_ofMagnitude hb, isNegative_ofMagnitude ha', isNegative_ofMagnitude hb',
    units_ofMagnitude ha', units_ofMagnitude hb']
  rfl

theorem div_ofMagnitude (hpos : 0 < b) : (ofMagnitude false a).div (ofMagnitude false b) =
    ofMagnitude false (roundUnits (unitsOfWord a * unitsPerOne) (unitsOfWord b)) := by
  have ha' := ha.trans infinityWord_lt
  have hb' := hb.trans infinityWord_lt
  rw [div, isNaN_ofMagnitude ha.le, isNaN_ofMagnitude hb.le, isInfinite_ofMagnitude ha,
    isInfinite_ofMagnitude hb, isNegative_ofMagnitude ha', isNegative_ofMagnitude hb',
    isZero_ofMagnitude hb' hpos, units_ofMagnitude ha', units_ofMagnitude hb']
  rfl

end Operations

/-! ## Bounds -/

/-- What is no greater than a finite number is not rounded beyond it. -/
theorem roundUnits_le {num den word : Nat} (hden : 0 < den)
    (hle : num ≤ unitsOfWord word * den) : roundUnits num den ≤ word := by
  have hden' : (0 : ℚ) < den := by exact_mod_cast hden
  have hvalue : (num : ℚ) / den ≤ unitsOfWord word := by
    rw [div_le_iff₀ hden']
    exact_mod_cast hle
  rw [roundUnits_eq_min]
  exact (Nat.min_le_left _ _).trans ((rounds_nearestWord num hden).le_of_le hvalue)

/-- Whole powers of two in range are numbers. -/
theorem exists_word_two_pow {k : Nat} (hk : k < 1024) :
    ∃ word < infinityWord.toNat, unitsOfWord word = 2 ^ k * unitsPerOne := by
  refine ⟨(k + 1022) * 2 ^ 52 + 2 ^ 52, ?_, ?_⟩
  · rw [infinityWord_toNat]
    omega
  · have hexponent : 52 + (k + 1022) = k + 1074 := by omega
    rw [unitsOfWord_normal (Nat.le_refl _) (by omega), unitsPerOne_eq, ← Nat.pow_add, ← Nat.pow_add,
      hexponent]

/-- The number has no sign and is no greater than a whole number. -/
def AtMost (n : Number) (limit : Nat) : Prop :=
  ∃ word < infinityWord.toNat, n = ofMagnitude false word ∧ unitsOfWord word ≤ limit * unitsPerOne

theorem AtMost.units_le {n : Number} {limit : Nat} (h : n.AtMost limit) :
    n.units ≤ limit * unitsPerOne := by
  obtain ⟨word, hword, rfl, hunits⟩ := h
  rwa [units_ofMagnitude (hword.trans infinityWord_lt)]

theorem atMost_roundUnits {num den k : Nat} (hden : 0 < den) (hk : k < 1024)
    (hle : num ≤ 2 ^ k * unitsPerOne * den) :
    (ofMagnitude false (roundUnits num den)).AtMost (2 ^ k) := by
  obtain ⟨word, hword, hunits⟩ := exists_word_two_pow hk
  rw [← hunits] at hle
  have hrounded := roundUnits_le hden hle
  refine ⟨_, hrounded.trans_lt hword, rfl, ?_⟩
  rw [← hunits]
  exact unitsOfWord_strictMono.monotone hrounded

theorem atMost_ofNat {n : Nat} (hn : n ≤ 2 ^ 53) : (ofNat n).AtMost n := by
  obtain ⟨hword, hunits⟩ := wordOfNat_spec hn
  exact ⟨_, hword, rfl, hunits.le⟩

namespace AtMost

variable {a b : Number} {m n k : Nat}

theorem mul (ha : a.AtMost m) (hb : b.AtMost n) (hk : k < 1024) (hle : m * n ≤ 2 ^ k) :
    (a.mul b).AtMost (2 ^ k) := by
  obtain ⟨x, hx, rfl, hm⟩ := ha
  obtain ⟨y, hy, rfl, hn⟩ := hb
  rw [mul_ofMagnitude hx hy]
  apply atMost_roundUnits unitsPerOne_pos hk
  calc unitsOfWord x * unitsOfWord y
      ≤ m * unitsPerOne * (n * unitsPerOne) := Nat.mul_le_mul hm hn
    _ = m * n * unitsPerOne * unitsPerOne := by ring
    _ ≤ 2 ^ k * unitsPerOne * unitsPerOne := by gcongr

theorem div_ofNat (ha : a.AtMost m) (hn : n ≤ 2 ^ 53) (hpos : 0 < n) (hk : k < 1024)
    (hle : m ≤ 2 ^ k * n) : (a.div (ofNat n)).AtMost (2 ^ k) := by
  obtain ⟨x, hx, rfl, hm⟩ := ha
  obtain ⟨hword, hunits⟩ := wordOfNat_spec hn
  have hunits' : 0 < n * unitsPerOne := Nat.mul_pos hpos unitsPerOne_pos
  have hword' : 0 < wordOfNat n := by
    apply Nat.pos_of_ne_zero
    intro hzero
    rw [hzero] at hunits
    exact hunits'.ne hunits
  rw [ofNat_eq, div_ofMagnitude hx hword hword', hunits]
  apply atMost_roundUnits hunits' hk
  calc unitsOfWord x * unitsPerOne
      ≤ m * unitsPerOne * unitsPerOne := by gcongr
    _ ≤ 2 ^ k * n * unitsPerOne * unitsPerOne := by gcongr
    _ = 2 ^ k * unitsPerOne * (n * unitsPerOne) := by ring

theorem add (ha : a.AtMost m) (hb : b.AtMost n) (hk : k < 1024) (hle : m + n ≤ 2 ^ k) :
    (a.add b).AtMost (2 ^ k) := by
  obtain ⟨x, hx, rfl, hm⟩ := ha
  obtain ⟨y, hy, rfl, hn⟩ := hb
  rw [add_ofMagnitude hx hy]
  apply atMost_roundUnits Nat.one_pos hk
  calc unitsOfWord x + unitsOfWord y
      ≤ m * unitsPerOne + n * unitsPerOne := Nat.add_le_add hm hn
    _ = (m + n) * unitsPerOne * 1 := by ring
    _ ≤ 2 ^ k * unitsPerOne * 1 := by gcongr

end AtMost

end FieldCalculus.Number
