import FieldCalculus.Number
import Mathlib.Data.ENat.Lattice
import Mathlib.Data.Nat.Bitwise
import Mathlib.Tactic.Ring

/-!
Whole numbers among the binary64 numbers. Up to `2 ^ 53` each of them is a number of its
own, sums of them are exact, and the order of numbers is theirs; what counts further stays
there. Hop counts are such numbers, or infinity.
-/

namespace FieldCalculus.Number

/-! ## Words without a sign -/

theorem infinityWord_toNat : infinityWord.toNat = 2047 * 2 ^ 52 := rfl

section Word

variable {word other : Nat} (hword : word < 2 ^ 63) (hother : other < 2 ^ 63)

include hword

theorem ofMagnitude_bits : (ofMagnitude false word).bits.toNat = word := by
  have hbound : word < UInt64.size := by
    rw [UInt64.size]
    omega
  simp [ofMagnitude, Nat.mod_eq_of_lt hbound]

theorem and_signWord : word &&& signWord.toNat = 0 := by
  have hbit : word.testBit 63 = false := Nat.testBit_eq_false_of_lt hword
  change word &&& 2 ^ 63 = 0
  rw [Nat.and_two_pow, hbit]
  rfl

theorem isNegative_ofMagnitude : (ofMagnitude false word).isNegative = false := by
  have hzero : (ofMagnitude false word).bits &&& signWord = 0 := by
    apply UInt64.toNat_inj.mp
    rw [UInt64.toNat_and, ofMagnitude_bits hword, and_signWord hword]
    rfl
  rw [isNegative, hzero]
  rfl

theorem magnitude_ofMagnitude : (ofMagnitude false word).magnitude.toNat = word := by
  have hmask : (~~~signWord).toNat = 2 ^ 63 - 1 := rfl
  rw [magnitude, UInt64.toNat_and, ofMagnitude_bits hword, hmask, Nat.and_two_pow_sub_one_eq_mod,
    Nat.mod_eq_of_lt hword]

theorem rank_ofMagnitude : (ofMagnitude false word).rank.toNat = 2 ^ 63 + word := by
  rw [rank, isNegative_ofMagnitude hword, if_neg (by decide), UInt64.toNat_or,
    ofMagnitude_bits hword, Nat.lor_comm]
  exact (Nat.two_pow_add_eq_or_of_lt hword 1).symm

end Word

/-! ## Exact rounding -/

theorem unitsPerOne_eq : unitsPerOne = 2 ^ 1074 := by
  rw [← Nat.one_mul (2 ^ 1074), ← Nat.shiftLeft_eq]
  rfl

theorem unitsPerOne_pos : 0 < unitsPerOne := by decide

theorem roundDiv_mul (quotient : Nat) {den : Nat} (hden : 0 < den) :
    roundDiv (quotient * den) den = quotient := by
  have hnot : ¬den < 2 * 0 := by omega
  have hne : (den == 2 * 0) = false := by
    rw [beq_eq_false_iff_ne]
    omega
  simp only [roundDiv, Nat.mul_mod_left, Nat.mul_div_cancel _ hden, hnot, hne]
  rfl

section Normal

variable {fraction shift : Nat} (hlow : 2 ^ 52 ≤ fraction) (hhigh : fraction < 2 ^ 53)

include hlow hhigh

/-- A normal number of units is rounded to the word that holds its `53` leading bits. -/
theorem roundUnits_normal (hshift : shift < 2046) :
    roundUnits (fraction * 2 ^ shift) 1 = shift * 2 ^ 52 + fraction := by
  have hpos : 0 < 2 ^ shift := Nat.two_pow_pos shift
  have hlog : (fraction * 2 ^ shift).log2 = 52 + shift := by
    rw [Nat.log2_eq_iff (Nat.mul_ne_zero (by omega) hpos.ne'), Nat.pow_add, Nat.add_right_comm,
      Nat.pow_add]
    exact ⟨Nat.mul_le_mul_right _ hlow, Nat.mul_lt_mul_of_pos_right hhigh hpos⟩
  have hfits : shift * 2 ^ 52 + fraction ≤ infinityWord.toNat := by
    rw [infinityWord_toNat]
    omega
  simp only [roundUnits, Nat.div_one, hlog, Nat.add_sub_cancel_left, Nat.shiftLeft_eq, Nat.one_mul,
    roundDiv_mul fraction hpos]
  exact Nat.min_eq_left hfits

theorem unitsOfWord_normal : unitsOfWord (shift * 2 ^ 52 + fraction) = fraction * 2 ^ shift := by
  have hfield : (shift * 2 ^ 52 + fraction) / 2 ^ 52 = shift + 1 := by omega
  have hrest : 2 ^ 52 + (shift * 2 ^ 52 + fraction) % 2 ^ 52 = fraction := by omega
  simp only [unitsOfWord, Nat.shiftRight_eq_div_pow, Nat.shiftLeft_eq, Nat.one_mul, hfield, hrest]
  simp

end Normal

/-- Up to `2 ^ 53` a whole number has at most `53` leading bits. -/
theorem exists_normal {n : Nat} (hpos : 0 < n) (hn : n ≤ 2 ^ 53) :
    ∃ fraction shift, 2 ^ 52 ≤ fraction ∧ fraction < 2 ^ 53 ∧ shift < 2046 ∧
      n * unitsPerOne = fraction * 2 ^ shift := by
  rw [unitsPerOne_eq]
  rcases Nat.lt_or_eq_of_le hn with hlt | rfl
  · have hlog : n.log2 ≤ 52 := by
      have := (Nat.log2_lt (by omega)).mpr hlt
      omega
    have hsplit : n.log2 + (52 - n.log2) = 52 := by omega
    refine ⟨n * 2 ^ (52 - n.log2), 1022 + n.log2, ?_, ?_, by omega, ?_⟩
    · calc 2 ^ 52 = 2 ^ n.log2 * 2 ^ (52 - n.log2) := by rw [← Nat.pow_add, hsplit]
        _ ≤ n * 2 ^ (52 - n.log2) := Nat.mul_le_mul_right _ (Nat.log2_self_le (by omega))
    · calc n * 2 ^ (52 - n.log2) < 2 ^ (n.log2 + 1) * 2 ^ (52 - n.log2) :=
          Nat.mul_lt_mul_of_pos_right Nat.lt_log2_self (Nat.two_pow_pos _)
        _ = 2 ^ 53 := by
          rw [← Nat.pow_add]
          congr 1
          omega
    · rw [Nat.mul_assoc, ← Nat.pow_add]
      congr 2
      omega
  · refine ⟨2 ^ 52, 1075, le_refl _, by omega, by omega, ?_⟩
    have hsum : 53 + 1074 = 52 + 1075 := rfl
    rw [← Nat.pow_add, ← Nat.pow_add, hsum]

/-! ## Whole numbers -/

/-- The word of a whole number. -/
def wordOfNat (n : Nat) : Nat := roundUnits (n * unitsPerOne) 1

theorem ofNat_eq (n : Nat) : ofNat n = ofMagnitude false (wordOfNat n) := rfl

/-- Up to `2 ^ 53` the word of a whole number is finite and stands for it exactly. -/
theorem wordOfNat_spec {n : Nat} (hn : n ≤ 2 ^ 53) :
    wordOfNat n < infinityWord.toNat ∧ unitsOfWord (wordOfNat n) = n * unitsPerOne := by
  rcases Nat.eq_zero_or_pos n with rfl | hpos
  · decide
  · obtain ⟨fraction, shift, hlow, hhigh, hshift, hunits⟩ := exists_normal hpos hn
    rw [wordOfNat, hunits, roundUnits_normal hlow hhigh hshift,
      unitsOfWord_normal hlow hhigh, infinityWord_toNat]
    exact ⟨by omega, rfl⟩

/-- Greater words stand for more units. -/
theorem unitsOfWord_strictMono : StrictMono unitsOfWord := by
  refine strictMono_nat_of_lt_succ fun word => ?_
  have hpos := Nat.two_pow_pos (word / 2 ^ 52 - 1)
  simp only [unitsOfWord, Nat.shiftRight_eq_div_pow, Nat.shiftLeft_eq, Nat.one_mul]
  by_cases hlast : word % 2 ^ 52 + 1 < 2 ^ 52
  · have hfield : (word + 1) / 2 ^ 52 = word / 2 ^ 52 := by omega
    have hrest : (word + 1) % 2 ^ 52 = word % 2 ^ 52 + 1 := by omega
    rw [hfield, hrest]
    split
    · omega
    · exact Nat.mul_lt_mul_of_pos_right (by omega) hpos
  · -- the fraction is full and the exponent takes the carry
    have hfield : (word + 1) / 2 ^ 52 = word / 2 ^ 52 + 1 := by omega
    have hrest : (word + 1) % 2 ^ 52 = 0 := by omega
    rw [hfield, hrest, if_neg (Nat.succ_ne_zero _), Nat.add_sub_cancel, Nat.add_zero]
    split
    · rename_i hzero
      rw [hzero]
      omega
    · rename_i hnormal
      calc (2 ^ 52 + word % 2 ^ 52) * 2 ^ (word / 2 ^ 52 - 1)
          < 2 ^ 53 * 2 ^ (word / 2 ^ 52 - 1) := Nat.mul_lt_mul_of_pos_right (by omega) hpos
        _ = 2 ^ 52 * 2 ^ (word / 2 ^ 52) := by
          rw [← Nat.pow_add, ← Nat.pow_add]
          congr 1
          omega

/-- Up to `2 ^ 53` words are in the order of the numbers. -/
theorem wordOfNat_mono {m n : Nat} (h : m ≤ n) (hn : n ≤ 2 ^ 53) : wordOfNat m ≤ wordOfNat n := by
  by_contra hnot
  have hunits := unitsOfWord_strictMono.monotone (Nat.le_of_not_le hnot)
  rw [(wordOfNat_spec hn).2, (wordOfNat_spec (h.trans hn)).2] at hunits
  have hsame : m = n := Nat.le_antisymm h (Nat.le_of_mul_le_mul_right hunits unitsPerOne_pos)
  exact hnot (hsame ▸ le_refl _)

theorem wordOfNat_le (n : Nat) : wordOfNat n ≤ infinityWord.toNat := Nat.min_le_right _ _

theorem infinityWord_lt : infinityWord.toNat < 2 ^ 63 := by decide

theorem isNaN_ofNat (n : Nat) : (ofNat n).isNaN = false := by
  have hword := wordOfNat_le n
  rw [isNaN, decide_eq_false_iff_not, UInt64.lt_iff_toNat_lt, ofNat_eq,
    magnitude_ofMagnitude (hword.trans_lt infinityWord_lt)]
  omega

theorem isNegative_ofNat (n : Nat) : (ofNat n).isNegative = false :=
  isNegative_ofMagnitude ((wordOfNat_le n).trans_lt infinityWord_lt)

theorem isInfinite_ofNat {n : Nat} (hn : n ≤ 2 ^ 53) : (ofNat n).isInfinite = false := by
  have hfinite := (wordOfNat_spec hn).1
  rw [isInfinite, beq_eq_false_iff_ne]
  intro hinfinite
  have hword := congrArg UInt64.toNat hinfinite
  rw [ofNat_eq, magnitude_ofMagnitude (hfinite.trans infinityWord_lt)] at hword
  omega

theorem signedUnits_ofNat {n : Nat} (hn : n ≤ 2 ^ 53) :
    (ofNat n).signedUnits = ((n * unitsPerOne : Nat) : Int) := by
  have hword := (wordOfNat_spec hn).1.trans infinityWord_lt
  rw [signedUnits, isNegative_ofNat, if_neg (by decide), units, ofNat_eq,
    magnitude_ofMagnitude hword, (wordOfNat_spec hn).2]

/-- One more is exact below `2 ^ 53`, and what `ofNat` makes of it there. -/
theorem add_one_ofNat {n : Nat} (hn : n ≤ 2 ^ 53) : (ofNat n).add (ofNat 1) = ofNat (n + 1) := by
  have hone : (1 : Nat) ≤ 2 ^ 53 := by decide
  have hsum : (ofNat n).signedUnits + (ofNat 1).signedUnits =
      (((n + 1) * unitsPerOne : Nat) : Int) := by
    rw [signedUnits_ofNat hn, signedUnits_ofNat hone, ← Int.natCast_add, ← Nat.add_mul]
  have hpos : 0 < (n + 1) * unitsPerOne := Nat.mul_pos (Nat.succ_pos n) unitsPerOne_pos
  rw [add, isNaN_ofNat, isNaN_ofNat, isInfinite_ofNat hn, isInfinite_ofNat hone, hsum,
    ofNat_eq (n + 1), wordOfNat]
  generalize (n + 1) * unitsPerOne = units at hpos
  have hnonzero : (units : Int) ≠ 0 := by omega
  have hnonneg : ¬(units : Int) < 0 := by omega
  simp only [Bool.or_self, Bool.false_eq_true, if_false, if_neg hnonzero, Int.natAbs_natCast,
    decide_eq_false hnonneg]

/-- Halfway to the next number the even word stays. -/
theorem ofNat_two_pow_succ : ofNat (2 ^ 53 + 1) = ofNat (2 ^ 53) := by decide +kernel

/-! ## Numbers of hops -/

/-- The number that counts hops: exact up to `2 ^ 53`, where counting stops, and infinity
for what cannot be reached. -/
def ofHops (hops : ℕ∞) : Number :=
  match hops with
  | ⊤ => infinity
  | (n : ℕ) => ofNat (min n (2 ^ 53))

theorem ofHops_top : ofHops ⊤ = infinity := rfl

theorem ofHops_coe (n : ℕ) : ofHops n = ofNat (min n (2 ^ 53)) := rfl

theorem ofHops_add_one (hops : ℕ∞) : (ofHops hops).add (ofNat 1) = ofHops (hops + 1) := by
  cases hops with
  | top =>
      have hone : (1 : Nat) ≤ 2 ^ 53 := by decide
      have hinfinity : infinity.isNaN = false ∧ infinity.isInfinite = true := by decide
      rw [top_add, ofHops_top, add, hinfinity.1, hinfinity.2, isNaN_ofNat, isInfinite_ofNat hone]
      rfl
  | coe n =>
      change (ofNat (min n (2 ^ 53))).add (ofNat 1) = ofNat (min (n + 1) (2 ^ 53))
      rw [add_one_ofNat (Nat.min_le_right _ _)]
      rcases Nat.lt_or_ge n (2 ^ 53) with hless | hmore
      · rw [Nat.min_eq_left hless.le, Nat.min_eq_left hless]
      · rw [Nat.min_eq_right hmore, Nat.min_eq_right (by omega), ofNat_two_pow_succ]

/-- The word of a number of hops. -/
def wordOfHops (hops : ℕ∞) : Nat :=
  match hops with
  | ⊤ => infinityWord.toNat
  | (n : ℕ) => wordOfNat (min n (2 ^ 53))

theorem wordOfHops_lt (hops : ℕ∞) : wordOfHops hops < 2 ^ 63 := by
  cases hops with
  | top => exact infinityWord_lt
  | coe n => exact (wordOfNat_le _).trans_lt infinityWord_lt

theorem ofHops_eq (hops : ℕ∞) : ofHops hops = ofMagnitude false (wordOfHops hops) := by
  cases hops with
  | top => rfl
  | coe n => rfl

theorem wordOfHops_mono {a b : ℕ∞} (h : a ≤ b) : wordOfHops a ≤ wordOfHops b := by
  cases b with
  | top =>
      cases a with
      | top => exact le_refl _
      | coe m => exact wordOfNat_le _
  | coe n =>
      cases a with
      | top => exact absurd h (by simp)
      | coe m =>
          have hmn : m ≤ n := by exact_mod_cast h
          exact wordOfNat_mono (min_le_min_right _ hmn) (Nat.min_le_right _ _)

/-- Below `2 ^ 53` every further hop counts. -/
theorem wordOfHops_lt_succ {n : ℕ} (hn : n < 2 ^ 53) :
    wordOfHops n < wordOfHops (n + 1 : ℕ) := by
  change wordOfNat (min n (2 ^ 53)) < wordOfNat (min (n + 1) (2 ^ 53))
  rw [Nat.min_eq_left hn.le, Nat.min_eq_left hn]
  refine lt_of_le_of_ne (wordOfNat_mono (Nat.le_succ n) hn) ?_
  intro heq
  have hunits := congrArg unitsOfWord heq
  rw [(wordOfNat_spec hn.le).2, (wordOfNat_spec hn).2] at hunits
  exact absurd (Nat.eq_of_mul_eq_mul_right unitsPerOne_pos hunits) (Nat.ne_of_lt (Nat.lt_succ_self n))

theorem ofHops_bits (hops : ℕ∞) : (ofHops hops).bits.toNat = wordOfHops hops := by
  rw [ofHops_eq, ofMagnitude_bits (wordOfHops_lt hops)]

theorem ofHops_min_of_le {a b : ℕ∞} (h : wordOfHops a ≤ wordOfHops b) :
    ofHops (min a b) = ofHops a := by
  rcases le_total a b with hab | hba
  · rw [min_eq_left hab]
  · rw [min_eq_right hba, ofHops_eq, ofHops_eq a, Nat.le_antisymm h (wordOfHops_mono hba)]

/-- Numbers of hops that programs cannot tell apart are the same. -/
theorem eq_of_equals_ofHops {a b : ℕ∞} (h : (ofHops a).equals (ofHops b)) :
    ofHops a = ofHops b := by
  have hzero : ∀ {hops : ℕ∞}, (ofHops hops).isZero → wordOfHops hops = 0 := by
    intro hops hzero
    rw [isZero, beq_iff_eq, ofHops_eq] at hzero
    have hword := congrArg UInt64.toNat hzero
    rwa [magnitude_ofMagnitude (wordOfHops_lt hops)] at hword
  simp only [equals, Bool.and_eq_true, Bool.or_eq_true, beq_iff_eq] at h
  have hword : wordOfHops a = wordOfHops b := by
    rcases h.2 with hbits | ⟨ha, hb⟩
    · rw [← ofHops_bits, hbits, ofHops_bits]
    · rw [hzero ha, hzero hb]
  rw [ofHops_eq, ofHops_eq, hword]

/-- The order of numbers puts the smaller count first. -/
theorem isLE_totalOrder_ofHops (a b : ℕ∞) :
    ((ofHops a).totalOrder (ofHops b)).isLE ↔ wordOfHops a ≤ wordOfHops b := by
  rw [totalOrder, Std.isLE_compare, UInt64.le_iff_toNat_le, ofHops_eq, ofHops_eq,
    rank_ofMagnitude (wordOfHops_lt a), rank_ofMagnitude (wordOfHops_lt b)]
  omega

end FieldCalculus.Number
