import FieldCalculus.Builtin.Call
import FieldCalculus.Proofs.Number
import Mathlib.Data.Int.ConditionallyCompleteOrder

/-!
The order of numbers. All words are in one line; apart from the NaNs and the negative zero it
is the order of what they stand for, and there equality of the calculus is identity.
-/

namespace FieldCalculus.Number

/-! ## Words as naturals -/

theorem bits_lt (n : Number) : n.bits.toNat < 2 ^ 64 := n.bits.toNat_lt

theorem isNegative_iff (n : Number) : n.isNegative ↔ 2 ^ 63 ≤ n.bits.toNat := by
  have hbound := n.bits_lt
  have hsign : signWord.toNat = 2 ^ 63 := rfl
  have hzero : (0 : UInt64).toNat = 0 := rfl
  have hbit : n.bits.toNat.testBit 63 = decide (2 ^ 63 ≤ n.bits.toNat) := by
    rw [Nat.testBit_eq_decide_div_mod_eq, decide_eq_decide]
    omega
  rw [isNegative, bne_iff_ne, ne_eq, ← UInt64.toNat_inj, UInt64.toNat_and, hsign, hzero,
    Nat.and_two_pow, hbit]
  by_cases hnegative : 2 ^ 63 ≤ n.bits.toNat <;> simp

theorem toNat_magnitude (n : Number) : n.magnitude.toNat = n.bits.toNat % 2 ^ 63 := by
  have hmask : (~~~signWord).toNat = 2 ^ 63 - 1 := rfl
  rw [magnitude, UInt64.toNat_and, hmask, Nat.and_two_pow_sub_one_eq_mod]

theorem toNat_rank (n : Number) : n.rank.toNat =
    if n.isNegative then 2 ^ 63 - 1 - n.magnitude.toNat else 2 ^ 63 + n.magnitude.toNat := by
  have hbound := n.bits_lt
  have hsign := n.isNegative_iff
  rw [rank, toNat_magnitude]
  split
  · -- the complement of a word with the sign set counts down from the middle
    rename_i hnegative
    rw [UInt64.toNat_not, UInt64.size]
    have hhigh := hsign.mp hnegative
    omega
  · rename_i hnegative
    have hlow : n.bits.toNat < 2 ^ 63 := Nat.lt_of_not_le fun hhigh => hnegative (hsign.mpr hhigh)
    have hor : (n.bits ||| signWord).toNat = 2 ^ 63 + n.bits.toNat := by
      rw [UInt64.toNat_or, Nat.lor_comm]
      exact (Nat.two_pow_add_eq_or_of_lt hlow 1).symm
    rw [hor, Nat.mod_eq_of_lt hlow]

theorem magnitude_lt (n : Number) : n.magnitude.toNat < 2 ^ 63 := by
  rw [toNat_magnitude]
  exact Nat.mod_lt _ (by omega)

/-- A number is its sign and its magnitude. -/
theorem ext_magnitude {a b : Number} (hsign : a.isNegative = b.isNegative)
    (hmagnitude : a.magnitude.toNat = b.magnitude.toNat) : a = b := by
  have hside : 2 ^ 63 ≤ a.bits.toNat ↔ 2 ^ 63 ≤ b.bits.toNat := by
    rw [← isNegative_iff, ← isNegative_iff, hsign]
  have ha := a.bits_lt
  have hb := b.bits_lt
  rw [toNat_magnitude, toNat_magnitude] at hmagnitude
  have hbits : a.bits.toNat = b.bits.toNat := by omega
  cases a
  cases b
  exact congrArg Number.mk (UInt64.toNat_inj.mp hbits)

theorem rank_injective {a b : Number} (h : a.rank = b.rank) : a = b := by
  have hranks := congrArg UInt64.toNat h
  have ha := a.magnitude_lt
  have hb := b.magnitude_lt
  rw [toNat_rank, toNat_rank] at hranks
  cases hnegative : a.isNegative <;> cases hother : b.isNegative <;>
    simp only [hnegative, hother, if_true, if_false, Bool.false_eq_true] at hranks
  · exact ext_magnitude (hnegative.trans hother.symm) (by omega)
  · omega
  · omega
  · exact ext_magnitude (hnegative.trans hother.symm) (by omega)

/-! ## The greater of two -/

theorem isLE_totalOrder (a b : Number) : (a.totalOrder b).isLE ↔ a.rank.toNat ≤ b.rank.toNat := by
  rw [totalOrder, Std.isLE_compare, UInt64.le_iff_toNat_le]

/-- The one that comes later in the order; the first one of equals. -/
def greater (a b : Number) : Number := if a.totalOrder b = .lt then b else a

theorem call_max (a b : Number) :
    Builtin.max.call [.number a, .number b] = .ok (.number (a.greater b)) := by
  change Except.ok _ = _
  unfold greater
  cases a.totalOrder b <;> rfl

theorem greater_eq (a b : Number) : a.greater b = a ∨ a.greater b = b := by
  unfold greater
  split
  · exact Or.inr rfl
  · exact Or.inl rfl

theorem toNat_rank_greater (a b : Number) :
    (a.greater b).rank.toNat = max a.rank.toNat b.rank.toNat := by
  have hlt : a.totalOrder b = .lt ↔ a.rank.toNat < b.rank.toNat := by
    rw [totalOrder, Std.compare_eq_lt, UInt64.lt_iff_toNat_lt]
  unfold greater
  split
  · rename_i hless
    rw [hlt] at hless
    omega
  · rename_i hnot
    rw [hlt] at hnot
    omega

/-! ## Numbers whose equality is identity -/

/-- A number that equals itself and nothing else. -/
structure Plain (n : Number) : Prop where
  number : n.isNaN = false
  signed : n ≠ negativeZero

instance (n : Number) : Decidable n.Plain :=
  decidable_of_iff (n.isNaN = false ∧ n ≠ negativeZero) ⟨fun h => ⟨h.1, h.2⟩, fun h => ⟨h.1, h.2⟩⟩

theorem Plain.eq_zero {n : Number} (h : n.Plain) (hzero : n.isZero) : n = zero := by
  have hmagnitude : n.magnitude.toNat = 0 := by
    rw [isZero, beq_iff_eq] at hzero
    rw [hzero]
    rfl
  cases hsign : n.isNegative with
  | false => exact ext_magnitude hsign hmagnitude
  | true => exact absurd (ext_magnitude hsign hmagnitude) h.signed

theorem Plain.eq_of_equals {a b : Number} (ha : a.Plain) (hb : b.Plain) (h : a.equals b) :
    a = b := by
  simp only [equals, Bool.and_eq_true, Bool.or_eq_true, beq_iff_eq] at h
  rcases h.2 with hbits | ⟨hzero, hother⟩
  · cases a
    cases b
    exact congrArg Number.mk hbits
  · rw [ha.eq_zero hzero, hb.eq_zero hother]

/-! ## Order and amount -/

/-- What a number stands for, counted in units; the infinities are the ends. -/
def amount (n : Number) : WithBot (WithTop ℤ) :=
  if n.isInfinite then if n.isNegative then ⊥ else ⊤ else ((n.signedUnits : WithTop ℤ) : WithBot _)

theorem Plain.magnitude_le {n : Number} (h : n.Plain) :
    n.magnitude.toNat ≤ infinityWord.toNat := by
  have hnumber := h.number
  rw [isNaN, decide_eq_false_iff_not, UInt64.lt_iff_toNat_lt] at hnumber
  omega

theorem isInfinite_iff (n : Number) :
    n.isInfinite ↔ n.magnitude.toNat = infinityWord.toNat := by
  rw [isInfinite, beq_iff_eq, UInt64.toNat_inj]

/-- Only the negative zero is negative and stands for nothing. -/
theorem Plain.units_pos {n : Number} (h : n.Plain) (hnegative : n.isNegative) : 0 < n.units := by
  have hmagnitude : n.magnitude.toNat ≠ 0 := by
    intro hzero
    refine h.signed (ext_magnitude ?_ hzero)
    rw [hnegative]
    rfl
  exact unitsOfWord_strictMono (Nat.pos_of_ne_zero hmagnitude)

/-- Ranks of plain numbers rise with what they stand for. -/
theorem Plain.amount_lt {a b : Number} (ha : a.Plain) (hb : b.Plain)
    (h : a.rank.toNat < b.rank.toNat) : a.amount < b.amount := by
  have hfirst := a.toNat_rank
  have hsecond := b.toNat_rank
  have hale := ha.magnitude_le
  have hble := hb.magnitude_le
  have habound := a.magnitude_lt
  have hunits : ∀ {m n : Number}, m.magnitude.toNat < n.magnitude.toNat → m.units < n.units :=
    fun hless => unitsOfWord_strictMono hless
  unfold amount
  cases hnegative : a.isNegative <;> cases hother : b.isNegative <;>
    simp only [hnegative, hother, if_true, if_false, Bool.false_eq_true] at hfirst hsecond ⊢
  · have hless : a.magnitude.toNat < b.magnitude.toNat := by omega
    have hfinite : ¬a.isInfinite := by
      rw [isInfinite_iff]
      omega
    rw [if_neg hfinite]
    split
    · exact WithBot.coe_lt_coe.mpr (WithTop.coe_lt_top _)
    · rw [WithBot.coe_lt_coe, WithTop.coe_lt_coe, signedUnits, signedUnits, hnegative, hother]
      exact Int.ofNat_lt.mpr (hunits hless)
  · omega
  · have hpos := ha.units_pos hnegative
    split
    · split
      · exact bot_lt_iff_ne_bot.mpr (by simp)
      · exact WithBot.bot_lt_coe _
    · split
      · exact WithBot.coe_lt_coe.mpr (WithTop.coe_lt_top _)
      · rw [WithBot.coe_lt_coe, WithTop.coe_lt_coe, signedUnits, signedUnits, hnegative, hother]
        simp only [if_true, Bool.false_eq_true, if_false]
        omega
  · have hless : b.magnitude.toNat < a.magnitude.toNat := by omega
    have hfinite : ¬b.isInfinite := by
      rw [isInfinite_iff]
      omega
    rw [if_neg hfinite]
    split
    · exact WithBot.bot_lt_coe _
    · rw [WithBot.coe_lt_coe, WithTop.coe_lt_coe, signedUnits, signedUnits, hnegative, hother]
      exact Int.neg_lt_neg (Int.ofNat_lt.mpr (hunits hless))

/-- The order of plain numbers is that of what they stand for. -/
theorem Plain.isLE_totalOrder_iff {a b : Number} (ha : a.Plain) (hb : b.Plain) :
    (a.totalOrder b).isLE ↔ a.amount ≤ b.amount := by
  rw [isLE_totalOrder]
  constructor
  · intro hle
    rcases Nat.lt_or_eq_of_le hle with hless | hsame
    · exact (ha.amount_lt hb hless).le
    · rw [rank_injective (UInt64.toNat_inj.mp hsame)]
  · intro hle
    by_contra hnot
    exact absurd (hb.amount_lt ha (Nat.lt_of_not_le hnot)) hle.not_gt

end FieldCalculus.Number
