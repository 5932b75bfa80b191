import FieldCalculus.Proofs.Number
import Mathlib.Algebra.Order.Field.Basic
import Mathlib.Algebra.Order.Field.Rat
import Mathlib.Data.Rat.Cast.Order
import Mathlib.Tactic.Linarith

/-!
Rounding goes to the nearest number. Around each word lie the values that are nearer to it than
to its neighbors; a value halfway between two words belongs to the even one. So no value belongs
to two words, and the word that rounding finds is the one to which the value belongs.
-/

namespace FieldCalculus.Number

/-! ## Words by their leading bits -/

/-- A word is that many steps of `2 ^ 52` beyond its leading bits. -/
theorem exists_leading (word : Nat) :
    ∃ shift leading, word = shift * 2 ^ 52 + leading ∧ leading < 2 ^ 53 ∧
      (shift = 0 ∨ 2 ^ 52 ≤ leading) := by
  by_cases hfield : word / 2 ^ 52 = 0
  · exact ⟨0, word, by omega, by omega, Or.inl rfl⟩
  · exact ⟨word / 2 ^ 52 - 1, 2 ^ 52 + word % 2 ^ 52, by omega, by omega, Or.inr (by omega)⟩

section Leading

variable {shift leading : Nat} (hnormal : shift = 0 ∨ 2 ^ 52 ≤ leading)

include hnormal

/-- The word of a carry out of the leading bits stands for the same. -/
theorem unitsOfWord_leading (hleading : leading ≤ 2 ^ 53) :
    unitsOfWord (shift * 2 ^ 52 + leading) = leading * 2 ^ shift := by
  rcases Nat.lt_or_eq_of_le hleading with hlt | rfl
  · rcases Nat.lt_or_ge leading (2 ^ 52) with hlow | hhigh
    · obtain rfl : shift = 0 := by omega
      have hfield : leading / 2 ^ 52 = 0 := by omega
      have hrest : leading % 2 ^ 52 = leading := by omega
      simp only [unitsOfWord, Nat.shiftRight_eq_div_pow, Nat.shiftLeft_eq, Nat.one_mul,
        Nat.zero_mul, Nat.zero_add, hfield, hrest, if_true, Nat.pow_zero, Nat.mul_one]
    · exact unitsOfWord_normal hhigh hlt
  · have hcarry : shift * 2 ^ 52 + 2 ^ 53 = (shift + 1) * 2 ^ 52 + 2 ^ 52 := by omega
    rw [hcarry, unitsOfWord_normal (Nat.le_refl _) (by omega), Nat.pow_succ]
    omega

theorem le_unitsOfWord_succ (hleading : leading ≤ 2 ^ 53) :
    (leading + 1) * 2 ^ shift ≤ unitsOfWord (shift * 2 ^ 52 + leading + 1) := by
  rcases Nat.lt_or_eq_of_le hleading with hlt | rfl
  · have hunits := unitsOfWord_leading (hnormal.imp_right fun h => Nat.le_succ_of_le h) hlt
    rw [Nat.add_assoc, hunits]
  · have hcarry : shift * 2 ^ 52 + 2 ^ 53 + 1 = (shift + 1) * 2 ^ 52 + (2 ^ 52 + 1) := by omega
    rw [hcarry, unitsOfWord_leading (Or.inr (by omega)) (by omega), Nat.pow_succ]
    have hpos := Nat.two_pow_pos shift
    omega

omit hnormal in
/-- Below a word whose leading bits are not the least ones lies the word of one bit less. -/
theorem unitsOfWord_pred (hleading : leading ≤ 2 ^ 53) (hpos : 0 < leading)
    (hmore : shift = 0 ∨ 2 ^ 52 < leading) :
    unitsOfWord (shift * 2 ^ 52 + leading - 1) = (leading - 1) * 2 ^ shift := by
  have hpred : shift * 2 ^ 52 + leading - 1 = shift * 2 ^ 52 + (leading - 1) := by omega
  rw [hpred]
  exact unitsOfWord_leading (hmore.imp_right fun h => Nat.le_sub_one_of_lt h) (by omega)

omit hnormal in
/-- Below the least leading bits the steps are half as long. -/
theorem unitsOfWord_pred_least (shift : Nat) :
    unitsOfWord ((shift + 1) * 2 ^ 52 + 2 ^ 52 - 1) = (2 ^ 53 - 1) * 2 ^ shift := by
  have hbelow : (shift + 1) * 2 ^ 52 + 2 ^ 52 - 1 = shift * 2 ^ 52 + (2 ^ 53 - 1) := by omega
  rw [hbelow, unitsOfWord_leading (Or.inr (by omega)) (by omega)]

end Leading

/-! ## Values that belong to a word -/

/-- A value counted in units is nearest to the word, or halfway and the word is even. -/
structure Rounds (value : ℚ) (word : Nat) : Prop where
  low : (unitsOfWord word + unitsOfWord (word - 1) : ℚ) ≤ 2 * value
  high : 2 * value ≤ (unitsOfWord word + unitsOfWord (word + 1) : ℚ)
  inside : word % 2 = 1 → (unitsOfWord word + unitsOfWord (word - 1) : ℚ) < 2 * value ∧
    2 * value < (unitsOfWord word + unitsOfWord (word + 1) : ℚ)

namespace Rounds

variable {value : ℚ} {word other : Nat}

theorem not_lt (h : Rounds value word) (hother : Rounds value other) : ¬word < other := by
  intro hless
  have hfirst : unitsOfWord word ≤ unitsOfWord (other - 1) :=
    unitsOfWord_strictMono.monotone (by omega)
  have hsecond : unitsOfWord (word + 1) ≤ unitsOfWord other :=
    unitsOfWord_strictMono.monotone (by omega)
  have hfirst' : (unitsOfWord word : ℚ) ≤ unitsOfWord (other - 1) := by exact_mod_cast hfirst
  have hsecond' : (unitsOfWord (word + 1) : ℚ) ≤ unitsOfWord other := by exact_mod_cast hsecond
  have hhigh := h.high
  have hlow := hother.low
  -- The two meet halfway between neighbors, and one of these is odd.
  have hunits : unitsOfWord (word + 1) = unitsOfWord other := by
    have : (unitsOfWord (word + 1) : ℚ) = unitsOfWord other := by linarith
    exact_mod_cast this
  have hnext : word + 1 = other := unitsOfWord_strictMono.injective hunits
  rcases Nat.mod_two_eq_zero_or_one word with heven | hodd
  · have hinside := (hother.inside (by omega)).1
    linarith
  · have hinside := (h.inside hodd).2
    linarith

/-- No value belongs to two words. -/
theorem unique (h : Rounds value word) (hother : Rounds value other) : word = other :=
  Nat.le_antisymm (Nat.le_of_not_lt (hother.not_lt h)) (Nat.le_of_not_lt (h.not_lt hother))

theorem of_mul_le {num den : Nat} (hden : 0 < den)
    (hlow : (unitsOfWord word + unitsOfWord (word - 1)) * den ≤ 2 * num)
    (hhigh : 2 * num ≤ (unitsOfWord word + unitsOfWord (word + 1)) * den)
    (hinside : word % 2 = 1 → (unitsOfWord word + unitsOfWord (word - 1)) * den < 2 * num ∧
      2 * num < (unitsOfWord word + unitsOfWord (word + 1)) * den) :
    Rounds (num / den) word := by
  have hpos : (0 : ℚ) < den := by exact_mod_cast hden
  have hassoc : 2 * ((num : ℚ) / den) = (2 * num : ℚ) / den := (mul_div_assoc 2 (num : ℚ) den).symm
  refine ⟨?_, ?_, fun hodd => ⟨?_, ?_⟩⟩
  · rw [hassoc, le_div_iff₀ hpos]
    exact_mod_cast hlow
  · rw [hassoc, div_le_iff₀ hpos]
    exact_mod_cast hhigh
  · rw [hassoc, lt_div_iff₀ hpos]
    exact_mod_cast (hinside hodd).1
  · rw [hassoc, div_lt_iff₀ hpos]
    exact_mod_cast (hinside hodd).2

end Rounds

/-! ## Rounding -/

/-- A quotient is rounded by at most half, and by less to an odd one. -/
theorem roundDiv_spec (num : Nat) {den : Nat} (hden : 0 < den) :
    2 * (roundDiv num den * den) ≤ 2 * num + den ∧ 2 * num ≤ 2 * (roundDiv num den * den) + den ∧
      (roundDiv num den % 2 = 1 → 2 * (roundDiv num den * den) < 2 * num + den ∧
        2 * num < 2 * (roundDiv num den * den) + den) := by
  have hsplit : num / den * den + num % den = num := by
    rw [Nat.mul_comm]
    exact Nat.div_add_mod num den
  have hrest := Nat.mod_lt num hden
  unfold roundDiv
  dsimp only
  split
  · rename_i hup
    simp only [Bool.or_eq_true, Bool.and_eq_true, decide_eq_true_eq, beq_iff_eq] at hup
    rw [Nat.add_mul, Nat.one_mul]
    generalize num / den * den = floor at hsplit ⊢
    omega
  · rename_i hdown
    simp only [Bool.or_eq_true, Bool.and_eq_true, decide_eq_true_eq, beq_iff_eq] at hdown
    generalize num / den * den = floor at hsplit ⊢
    omega

/-- The word nearest to a value, were there no greatest one. -/
def nearestWord (num den : Nat) : Nat :=
  ((num / den).log2 - 52) * 2 ^ 52 + roundDiv num (den * 2 ^ ((num / den).log2 - 52))

theorem roundUnits_eq_min (num den : Nat) :
    roundUnits num den = min (nearestWord num den) infinityWord.toNat := by
  simp only [roundUnits, nearestWord, Nat.shiftLeft_eq]

section Nearest

variable {num den shift : Nat} (hden : 0 < den) (hshift : (num / den).log2 - 52 = shift)

include hden hshift

/-- No more than 53 bits are left when the others are given up. -/
theorem lt_of_shift : num < 2 ^ 53 * (den * 2 ^ shift) := by
  have hlog : num / den < 2 ^ (53 + shift) :=
    Nat.lt_of_lt_of_le Nat.lt_log2_self (Nat.pow_le_pow_right (by decide) (by omega))
  rw [Nat.div_lt_iff_lt_mul hden, Nat.pow_add] at hlog
  rwa [Nat.mul_comm den, ← Nat.mul_assoc]

/-- If any are given up, 53 are left. -/
theorem le_of_shift (hsome : shift ≠ 0) : 2 ^ 52 * (den * 2 ^ shift) ≤ num := by
  have hquotient : num / den ≠ 0 := by
    intro hzero
    rw [hzero] at hshift
    exact hsome hshift.symm
  have hlog : 2 ^ (52 + shift) ≤ num / den := by
    have hexact : 52 + shift = (num / den).log2 := by omega
    rw [hexact]
    exact Nat.log2_self_le hquotient
  rw [Nat.le_div_iff_mul_le hden, Nat.pow_add] at hlog
  rwa [Nat.mul_comm den, ← Nat.mul_assoc]

/-- What is rounded to are leading bits of a word, or a carry out of them. -/
theorem roundDiv_leading : roundDiv num (den * 2 ^ shift) ≤ 2 ^ 53 ∧
    (shift = 0 ∨ 2 ^ 52 ≤ roundDiv num (den * 2 ^ shift)) := by
  have hstep : 0 < den * 2 ^ shift := Nat.mul_pos hden (Nat.two_pow_pos shift)
  have hless := lt_of_shift hden hshift
  obtain ⟨hlow, hhigh, -⟩ := roundDiv_spec num hstep
  generalize roundDiv num (den * 2 ^ shift) = leading at hlow hhigh ⊢
  constructor
  · by_contra hmore
    have hmul : (2 ^ 53 + 1) * (den * 2 ^ shift) ≤ leading * (den * 2 ^ shift) :=
      Nat.mul_le_mul_right _ (by omega)
    omega
  · by_contra hnot
    have hmul : leading * (den * 2 ^ shift) ≤ (2 ^ 52 - 1) * (den * 2 ^ shift) :=
      Nat.mul_le_mul_right _ (by omega)
    have hleast := le_of_shift hden hshift (by omega)
    omega

end Nearest

section Below

variable {num den shift leading : Nat}

theorem mul_two_pow_mul (k : Nat) : k * 2 ^ shift * den = k * (den * 2 ^ shift) := by
  rw [Nat.mul_assoc, Nat.mul_comm (2 ^ shift)]

/-- The word below is a whole step below, or the value has reached the word itself. -/
theorem reached_or_pred (hleading : leading ≤ 2 ^ 53) (hpos : 0 < leading)
    (hnormal : shift = 0 ∨ 2 ^ 52 ≤ leading)
    (hreached : shift ≠ 0 → 2 ^ 52 * (den * 2 ^ shift) ≤ num) :
    (unitsOfWord (shift * 2 ^ 52 + leading - 1) * den ≤ leading * (den * 2 ^ shift) ∧
      leading % 2 = 0 ∧ leading * (den * 2 ^ shift) ≤ num) ∨
    unitsOfWord (shift * 2 ^ 52 + leading - 1) * den + den * 2 ^ shift =
      leading * (den * 2 ^ shift) := by
  by_cases hleast : shift ≠ 0 ∧ leading = 2 ^ 52
  · -- the step below is the smaller one, but nothing below this word has come here
    left
    have hbound : unitsOfWord (shift * 2 ^ 52 + leading - 1) * den ≤
        leading * (den * 2 ^ shift) := by
      rw [← mul_two_pow_mul, ← unitsOfWord_leading hnormal hleading]
      exact Nat.mul_le_mul_right _ (unitsOfWord_strictMono.monotone (Nat.sub_le _ _))
    have hleft := hreached hleast.1
    rw [← hleast.2] at hleft
    exact ⟨hbound, by omega, hleft⟩
  · right
    rw [unitsOfWord_pred hleading hpos (by omega : shift = 0 ∨ 2 ^ 52 < leading),
      mul_two_pow_mul, Nat.sub_one_mul]
    exact Nat.sub_add_cancel (Nat.le_mul_of_pos_left _ hpos)

end Below

/-- A value belongs to the word nearest to it. -/
theorem rounds_nearestWord (num : Nat) {den : Nat} (hden : 0 < den) :
    Rounds (num / den) (nearestWord num den) := by
  unfold nearestWord
  generalize hshift : (num / den).log2 - 52 = shift
  have hstep : 0 < den * 2 ^ shift := Nat.mul_pos hden (Nat.two_pow_pos shift)
  have hreached : shift ≠ 0 → 2 ^ 52 * (den * 2 ^ shift) ≤ num := le_of_shift hden hshift
  obtain ⟨hleading, hnormal⟩ := roundDiv_leading hden hshift
  obtain ⟨hlow, hhigh, hinside⟩ := roundDiv_spec num hstep
  generalize roundDiv num (den * 2 ^ shift) = leading at hleading hnormal hlow hhigh hinside ⊢
  have hparity : (shift * 2 ^ 52 + leading) % 2 = leading % 2 := by omega
  have hown : unitsOfWord (shift * 2 ^ 52 + leading) * den = leading * (den * 2 ^ shift) := by
    rw [unitsOfWord_leading hnormal hleading, mul_two_pow_mul]
  have hnext : leading * (den * 2 ^ shift) + den * 2 ^ shift ≤
      unitsOfWord (shift * 2 ^ 52 + leading + 1) * den := by
    rw [← Nat.add_one_mul, ← mul_two_pow_mul]
    exact Nat.mul_le_mul_right _ (le_unitsOfWord_succ hnormal hleading)
  have hlower : (leading * (den * 2 ^ shift) +
      unitsOfWord (shift * 2 ^ 52 + leading - 1) * den ≤ 2 * num) ∧ (leading % 2 = 1 →
        leading * (den * 2 ^ shift) + unitsOfWord (shift * 2 ^ 52 + leading - 1) * den <
          2 * num) := by
    rcases Nat.eq_zero_or_pos leading with rfl | hpos
    · obtain rfl : shift = 0 := by omega
      exact ⟨Nat.le_trans (by simp [unitsOfWord]) (Nat.zero_le _), by omega⟩
    · rcases reached_or_pred hleading hpos hnormal hreached with ⟨hbound, heven, hleft⟩ | hbelow
      · exact ⟨by omega, by omega⟩
      · exact ⟨by omega, by omega⟩
  refine Rounds.of_mul_le hden ?_ ?_ fun hodd => ⟨?_, ?_⟩ <;> rw [Nat.add_mul, hown]
  · exact hlower.1
  · omega
  · exact hlower.2 (hparity.symm.trans hodd)
  · have hstrict := (hinside (hparity.symm.trans hodd)).2
    omega

/-- What belongs to a finite word is rounded to it. -/
theorem roundUnits_eq {num den word : Nat} (hden : 0 < den) (hword : word < infinityWord.toNat)
    (h : Rounds (num / den) word) : roundUnits num den = word := by
  rw [roundUnits_eq_min, (rounds_nearestWord num hden).unique h]
  exact Nat.min_eq_left hword.le

end FieldCalculus.Number
