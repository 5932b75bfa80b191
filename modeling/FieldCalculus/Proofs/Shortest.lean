import FieldCalculus.Number.Decimal
import FieldCalculus.Proofs.Order
import FieldCalculus.Proofs.Rounding
import Mathlib.Algebra.Order.Field.Power
import Mathlib.Tactic.NormNum
import Mathlib.Tactic.Positivity
import Mathlib.Tactic.Ring

/-!
The shortest decimal of a number is read back as that number, and so is every other decimal of
the same value. The search for it comes to an end: on the last grid that it tries the steps are
smaller than the distance to the next number. The grids before it are coarse enough for a
coefficient of 64 bits.
-/

namespace FieldCalculus

namespace Number

theorem toNat_ofMagnitude (negative : Bool) {word : Nat} (hword : word < 2 ^ 63) :
    (ofMagnitude negative word).bits.toNat = word + if negative then 2 ^ 63 else 0 := by
  cases negative with
  | false => exact ofMagnitude_bits hword
  | true =>
      have hbits : (UInt64.ofNat word).toNat = word := by
        rw [UInt64.toNat_ofNat']
        exact Nat.mod_eq_of_lt (by omega)
      have hor : word ||| 2 ^ 63 = 2 ^ 63 + word := by
        rw [Nat.lor_comm]
        exact (Nat.two_pow_add_eq_or_of_lt hword 1).symm
      change (UInt64.ofNat word ||| signWord).toNat = _
      rw [UInt64.toNat_or, hbits, if_pos rfl, Nat.add_comm]
      exact hor

/-- A number is put together again from its sign and its magnitude. -/
theorem ofMagnitude_isNegative (n : Number) : ofMagnitude n.isNegative n.magnitude.toNat = n := by
  have hbits := toNat_ofMagnitude n.isNegative n.magnitude_lt
  have hsign := n.isNegative_iff
  have hbound := n.bits_lt
  rw [toNat_magnitude] at hbits ⊢
  have hsame : (ofMagnitude n.isNegative (n.bits.toNat % 2 ^ 63)).bits = n.bits := by
    rw [← UInt64.toNat_inj, hbits]
    split
    · rename_i hnegative
      have hhigh := hsign.mp hnegative
      omega
    · rename_i hpositive
      have hlow : ¬2 ^ 63 ≤ n.bits.toNat := fun hhigh => hpositive (hsign.mpr hhigh)
      omega
  cases n
  exact congrArg Number.mk hsame

end Number

namespace Decimal

open Number (Rounds unitsPerOne unitsPerOne_eq unitsOfWord infinityWord)

/-- What a decimal stands for. -/
def value (d : Decimal) : ℚ := d.coefficient * 10 ^ d.exponent

theorem ten_zpow (e : Int) :
    (10 : ℚ) ^ e = (10 ^ e.toNat : ℕ) / (10 ^ (-e).toNat : ℕ) := by
  rcases Int.le_total 0 e with hnonneg | hnonpos
  · obtain ⟨n, rfl⟩ := Int.eq_ofNat_of_zero_le hnonneg
    simp
  · obtain ⟨n, rfl⟩ := Int.exists_eq_neg_ofNat hnonpos
    simp

theorem value_eq_div (d : Decimal) :
    d.value = (d.coefficient * 10 ^ d.exponent.toNat : ℕ) / (10 ^ (-d.exponent).toNat : ℕ) := by
  rw [value, ten_zpow, Nat.cast_mul, mul_div_assoc]

/-- The value of a decimal, counted in units. -/
theorem value_mul_unitsPerOne (d : Decimal) : d.value * unitsPerOne =
    (d.coefficient * 10 ^ d.exponent.toNat * unitsPerOne : ℕ) / (10 ^ (-d.exponent).toNat : ℕ) := by
  rw [value_eq_div, div_mul_eq_mul_div, Nat.cast_mul _ unitsPerOne]

/-! ## Reading -/

section Reading

variable {d : Decimal} {word : Nat} (hpos : 0 < word) (hword : word < infinityWord.toNat)
  (h : Rounds (d.value * unitsPerOne) word)

include hpos h

theorem one_le_two_value : 1 ≤ 2 * (d.value * unitsPerOne) := by
  have hunits : 1 ≤ unitsOfWord word := Number.unitsOfWord_strictMono hpos
  have hunits' : (1 : ℚ) ≤ unitsOfWord word := by exact_mod_cast hunits
  have hbelow : (0 : ℚ) ≤ unitsOfWord (word - 1) := Nat.cast_nonneg _
  have hlow := h.low
  linarith

theorem coefficient_pos : 0 < d.coefficient := by
  have hhalf := one_le_two_value hpos h
  rcases Nat.eq_zero_or_pos d.coefficient with hzero | hsome
  · rw [value, hzero, Nat.cast_zero, zero_mul, zero_mul] at hhalf
    norm_num at hhalf
  · exact hsome

omit hpos in
include hword in
theorem value_le : d.value * unitsPerOne ≤ unitsOfWord infinityWord.toNat := by
  have hunits : unitsOfWord word ≤ unitsOfWord infinityWord.toNat :=
    Number.unitsOfWord_strictMono.monotone hword.le
  have hnext : unitsOfWord (word + 1) ≤ unitsOfWord infinityWord.toNat :=
    Number.unitsOfWord_strictMono.monotone hword
  have hunits' : (unitsOfWord word : ℚ) ≤ unitsOfWord infinityWord.toNat := by exact_mod_cast hunits
  have hnext' : (unitsOfWord (word + 1) : ℚ) ≤ unitsOfWord infinityWord.toNat := by
    exact_mod_cast hnext
  have hhigh := h.high
  linarith

end Reading

/-! ## The length of a coefficient -/

theorem length_toString (n : Nat) : (toString n).length = (Nat.toDigits 10 n).length := by
  rw [Nat.toString_eq_ofList_toDigits, String.length_ofList]

/-- A coefficient has as many digits as the power of ten above it tells. -/
theorem coefficient_lt (d : Decimal) : d.coefficient < 10 ^ (toString d.coefficient).length := by
  rw [length_toString]
  exact (Nat.length_toDigits_le_iff (by decide) Nat.length_toDigits_pos).mp (Nat.le_refl _)

theorem le_coefficient {d : Decimal} (hpos : 0 < d.coefficient) :
    10 ^ ((toString d.coefficient).length - 1) ≤ d.coefficient := by
  rw [length_toString]
  rcases Nat.eq_zero_or_pos ((Nat.toDigits 10 d.coefficient).length - 1) with hone | hmore
  · rw [hone]
    exact hpos
  · by_contra hless
    have hshort := (Nat.length_toDigits_le_iff (by decide) hmore).mpr (Nat.lt_of_not_le hless)
    omega

theorem value_lt (d : Decimal) :
    d.value < 10 ^ (d.exponent + ((toString d.coefficient).length : Int)) := by
  have hcoefficient : (d.coefficient : ℚ) < 10 ^ (toString d.coefficient).length := by
    exact_mod_cast d.coefficient_lt
  have hpower : (0 : ℚ) < 10 ^ d.exponent := zpow_pos (by norm_num) _
  rw [value, zpow_add₀ (by norm_num), zpow_natCast, mul_comm]
  exact mul_lt_mul_of_pos_left hcoefficient hpower

theorem le_value {d : Decimal} (hpos : 0 < d.coefficient) :
    (10 : ℚ) ^ (d.exponent + ((toString d.coefficient).length : Int) - 1) ≤ d.value := by
  have hlength : 0 < (toString d.coefficient).length := by
    rw [length_toString]
    exact Nat.length_toDigits_pos
  have hexponent : d.exponent + ((toString d.coefficient).length : Int) - 1 =
      d.exponent + (((toString d.coefficient).length - 1 : ℕ) : Int) := by omega
  have hcoefficient : (10 : ℚ) ^ ((toString d.coefficient).length - 1) ≤ d.coefficient := by
    exact_mod_cast le_coefficient hpos
  have hpower : (0 : ℚ) < 10 ^ d.exponent := zpow_pos (by norm_num) _
  rw [value, hexponent, zpow_add₀ (by norm_num), zpow_natCast, mul_comm]
  exact mul_le_mul_of_nonneg_right hcoefficient hpower.le

/-- Where the numbers end, in powers of two and of ten. -/
theorem range_bounds : unitsOfWord infinityWord.toNat = 1 <<< 2098 ∧
    unitsOfWord infinityWord.toNat < 10 ^ 309 * unitsPerOne ∧ 2 * unitsPerOne < 10 ^ 324 := by
  decide +kernel

/-- The inverse of this power of ten is beyond all numbers but zero. -/
theorem two_mul_unitsPerOne_lt : ((2 * unitsPerOne : ℕ) : ℚ) < 10 ^ 324 := by
  have hcast := (Nat.cast_lt (α := ℚ)).mpr range_bounds.2.2
  rwa [Nat.cast_pow, Nat.cast_ofNat] at hcast

/-- This power of ten is beyond all numbers. -/
theorem units_infinityWord_lt :
    (unitsOfWord infinityWord.toNat : ℚ) < 10 ^ 309 * unitsPerOne := by
  have hcast := (Nat.cast_lt (α := ℚ)).mpr range_bounds.2.1
  rwa [Nat.cast_mul, Nat.cast_pow, Nat.cast_ofNat] at hcast

section Reading

variable {d : Decimal} {word : Nat}

/-- What belongs to a word but zero is no number that is too small to be read. -/
theorem le_length_of_rounds (hpos : 0 < word) (h : Rounds (d.value * unitsPerOne) word) :
    -324 ≤ d.exponent + ((toString d.coefficient).length : Int) := by
  by_contra hless
  have hsome := coefficient_pos hpos h
  have hpower : (0 : ℚ) < 10 ^ 324 := by positivity
  have hbound : d.value < 10 ^ (-((324 : ℕ) : Int)) :=
    d.value_lt.trans (zpow_lt_zpow_right₀ (by norm_num) (lt_of_not_ge hless))
  have hscaled : d.value * 10 ^ 324 < 1 := by
    rw [zpow_neg, zpow_natCast, ← one_div] at hbound
    exact (lt_div_iff₀ hpower).mp hbound
  have htiny : d.value * ((2 * unitsPerOne : ℕ) : ℚ) < 1 :=
    (mul_le_mul_of_nonneg_left two_mul_unitsPerOne_lt.le
      (le_value hsome |>.trans' (zpow_pos (by norm_num) _).le)).trans_lt hscaled
  have hhalf := one_le_two_value hpos h
  rw [Nat.cast_mul, Nat.cast_ofNat] at htiny
  linarith

/-- What belongs to a finite word is no number that is too great to be read. -/
theorem length_le_of_rounds (hsome : 0 < d.coefficient) (hword : word < infinityWord.toNat)
    (h : Rounds (d.value * unitsPerOne) word) :
    d.exponent + ((toString d.coefficient).length : Int) ≤ 309 := by
  by_contra hmore
  have hunits : (0 : ℚ) < unitsPerOne := by exact_mod_cast Number.unitsPerOne_pos
  have hvalue : (10 : ℚ) ^ 309 ≤ d.value := by
    have hexponent :
        ((309 : ℕ) : Int) ≤ d.exponent + ((toString d.coefficient).length : Int) - 1 := by
      omega
    refine le_trans ?_ (le_value hsome)
    rw [← zpow_natCast]
    exact zpow_le_zpow_right₀ (by norm_num) hexponent
  have hbound := value_le hword h
  exact absurd (hbound.trans_lt units_infinityWord_lt)
    (not_lt_of_ge (mul_le_mul_of_nonneg_right hvalue hunits.le))

end Reading

/-- A decimal that belongs to a finite word is read as that word, whatever its digits. -/
theorem toNumber_eq (negative : Bool) {d : Decimal} {word : Nat} (hpos : 0 < word)
    (hword : word < infinityWord.toNat) (h : Rounds (d.value * unitsPerOne) word) :
    d.toNumber negative = .ofMagnitude negative word := by
  have hsome := coefficient_pos hpos h
  have hsmall := le_length_of_rounds hpos h
  have hgreat := length_le_of_rounds hsome hword h
  unfold toNumber
  dsimp only
  rw [if_neg (by simp only [Bool.or_eq_true, decide_eq_true_eq]; omega), if_neg (by omega)]
  rw [value_mul_unitsPerOne] at h
  have hround : Number.roundUnits (d.coefficient * Nat.pow 10 d.exponent.toNat * unitsPerOne)
      (Nat.pow 10 (-d.exponent).toNat) = word :=
    Number.roundUnits_eq (Nat.pow_pos (by decide)) hword h
  have hzero : Nat.pow 10 0 = 1 := rfl
  -- one of the two powers is 1, which the reader leaves out
  split
  · rename_i hwhole
    have hden : (-d.exponent).toNat = 0 := by omega
    rw [hden, hzero] at hround
    rw [Number.ofRatio, hround]
  · rename_i hfraction
    have hnum : d.exponent.toNat = 0 := by omega
    rw [hnum, hzero, Nat.mul_one] at hround
    rw [Number.ofRatio, hround]

/-! ## Grids -/

/-- Whether a multiple of a grid lies between two values, counted in half units. -/
def inside (low high : Nat) (closed : Bool) (grid : Int) (c : Nat) : Bool :=
  let up := Nat.pow 10 (-grid).toNat
  let x := c * (2 * unitsPerOne * Nat.pow 10 grid.toNat)
  if closed then low * up ≤ x && x ≤ high * up else low * up < x && x < high * up

/-- The multiple of a grid nearest to a value counted in half units. -/
def nearer (value : Nat) (grid : Int) : Nat :=
  let up := Nat.pow 10 (-grid).toNat
  let step := 2 * unitsPerOne * Nat.pow 10 grid.toNat
  let below := value * up / step
  if 2 * (value * up % step) ≤ step then below else below + 1

section Grid

variable {low value high : Nat} {closed : Bool} {grid : Int}

theorem onGrid?_eq (low value high : Nat) (closed : Bool) (grid : Int) :
    onGrid? low value high closed grid =
      let below := value * Nat.pow 10 (-grid).toNat / (2 * unitsPerOne * Nat.pow 10 grid.toNat)
      if inside low high closed grid (nearer value grid) then some ⟨nearer value grid, grid⟩
      else if inside low high closed grid below then some ⟨below, grid⟩
      else if inside low high closed grid (below + 1) then some ⟨below + 1, grid⟩
      else none := rfl

/-- What is found on a grid is a multiple of it between the two ends. -/
theorem inside_of_onGrid? {d : Decimal} (h : onGrid? low value high closed grid = some d) :
    d.exponent = grid ∧ inside low high closed grid d.coefficient := by
  rw [onGrid?_eq] at h
  dsimp only at h
  split at h
  · rename_i hnearer
    cases h
    exact ⟨rfl, hnearer⟩
  · split at h
    · rename_i hbelow
      cases h
      exact ⟨rfl, hbelow⟩
    · split at h
      · rename_i habove
        cases h
        exact ⟨rfl, habove⟩
      · cases h

theorem step_pos : 0 < 2 * unitsPerOne * Nat.pow 10 grid.toNat :=
  Nat.mul_pos (Nat.mul_pos (by decide) Number.unitsPerOne_pos) (Nat.pow_pos (by decide))

/-- The nearest multiple is half a step away at most. -/
theorem nearer_spec (value : Nat) (grid : Int) :
    let up := Nat.pow 10 (-grid).toNat
    let step := 2 * unitsPerOne * Nat.pow 10 grid.toNat
    2 * (nearer value grid * step) ≤ 2 * (value * up) + step ∧
      2 * (value * up) ≤ 2 * (nearer value grid * step) + step := by
  intro up step
  have hsplit : value * up / step * step + value * up % step = value * up := by
    rw [Nat.mul_comm]
    exact Nat.div_add_mod _ _
  have hrest : value * up % step < step := Nat.mod_lt _ step_pos
  have hnext : (value * up / step + 1) * step = value * up / step * step + step :=
    Nat.add_one_mul _ _
  change 2 * ((if 2 * (value * up % step) ≤ step then value * up / step
      else value * up / step + 1) * step) ≤ _ ∧ _ ≤ 2 * ((if 2 * (value * up % step) ≤ step
      then value * up / step else value * up / step + 1) * step) + _
  split
  · omega
  · omega

/-- A grid whose steps are small enough has a multiple between the ends. -/
theorem onGrid?_of_fine
    (hlow : 2 * unitsPerOne * Nat.pow 10 grid.toNat < 2 * ((value - low) * Nat.pow 10 (-grid).toNat))
    (hhigh : 2 * unitsPerOne * Nat.pow 10 grid.toNat <
      2 * ((high - value) * Nat.pow 10 (-grid).toNat)) :
    ∃ d, onGrid? low value high closed grid = some d := by
  obtain ⟨hbelow, habove⟩ := nearer_spec value grid
  have hinside : inside low high closed grid (nearer value grid) := by
    unfold inside
    dsimp only at hbelow habove ⊢
    rw [Nat.sub_mul] at hlow hhigh
    generalize 2 * unitsPerOne * Nat.pow 10 grid.toNat = step at *
    cases closed with
    | true =>
        simp only [if_true, Bool.and_eq_true, decide_eq_true_eq]
        omega
    | false =>
        simp only [Bool.false_eq_true, if_false, Bool.and_eq_true, decide_eq_true_eq]
        omega
  exact ⟨⟨nearer value grid, grid⟩, if_pos hinside⟩

/-- If one of the grids that are tried has a multiple between the ends, the search ends with
such a multiple, on a grid that is no finer. -/
theorem search_spec {fuel : Nat} :
    ∀ {grid : Int} (later : Nat), later < fuel →
      (∃ d, onGrid? low value high closed (grid - later) = some d) →
      ∃ found, grid - later ≤ found ∧ onGrid? low value high closed found =
        some (search low value high closed fuel grid) := by
  induction fuel with
  | zero => exact fun later hless => absurd hless (Nat.not_lt_zero later)
  | succ fuel ih =>
      intro grid later hless hlater
      rw [search]
      cases hhere : onGrid? low value high closed grid with
      | some d => exact ⟨grid, by omega, hhere⟩
      | none =>
          cases later with
          | zero =>
              obtain ⟨d, hd⟩ := hlater
              rw [Nat.cast_zero, Int.sub_zero, hhere] at hd
              cases hd
          | succ later =>
              have hgrid : grid - ((later + 1 : ℕ) : Int) = grid - 1 - later := by omega
              rw [hgrid] at hlater ⊢
              obtain ⟨found, hfound, hsearch⟩ := ih later (Nat.lt_of_succ_lt_succ hless) hlater
              exact ⟨found, hfound, hsearch⟩

end Grid

/-- A multiple of a grid within the bounds of a word belongs to that word. -/
theorem rounds_of_inside {word c : Nat} {grid : Int}
    (h : inside (unitsOfWord word + unitsOfWord (word - 1))
      (unitsOfWord word + unitsOfWord (word + 1)) (word % 2 == 0) grid c) :
    Rounds ((⟨c, grid⟩ : Decimal).value * unitsPerOne) word := by
  have hdouble : c * (2 * unitsPerOne * Nat.pow 10 grid.toNat) =
      2 * (c * 10 ^ grid.toNat * unitsPerOne) := by
    change c * (2 * unitsPerOne * 10 ^ grid.toNat) = _
    ring
  unfold inside at h
  dsimp only at h
  rw [hdouble] at h
  rw [value_mul_unitsPerOne]
  change _ = true at h
  cases hparity : (word % 2 == 0) with
  | true =>
      rw [hparity] at h
      simp only [if_true, Bool.and_eq_true, decide_eq_true_eq] at h
      rw [beq_iff_eq] at hparity
      exact Rounds.of_mul_le (Nat.pow_pos (by decide)) h.1 h.2 (by omega)
  | false =>
      rw [hparity] at h
      simp only [Bool.false_eq_true, if_false, Bool.and_eq_true, decide_eq_true_eq] at h
      exact Rounds.of_mul_le (Nat.pow_pos (by decide)) h.1.le h.2.le fun _ => h

/-! ## The search -/

/-- The grid on which the search starts for a number with so many leading bits. -/
def topGrid (bits : Nat) : Int := ((bits : Int) - 1073) * 30103 / 100000 + 1

/-- After eighteen grids the steps are smaller than those of the numbers, and up to there
coefficients have 64 bits. -/
theorem finestGrid_spec : ∀ bits ∈ List.range 2098,
    unitsPerOne * Nat.pow 10 (topGrid bits - 18).toNat <
        1 <<< (bits - 53) * Nat.pow 10 (-(topGrid bits - 18)).toNat ∧
      3 * 1 <<< bits * Nat.pow 10 (-(topGrid bits - 18)).toNat <
        UInt64.size * (unitsPerOne * Nat.pow 10 (topGrid bits - 18).toNat) := by decide +kernel

/-- The distance from a word to its neighbors, by the number of its leading bits. -/
theorem step_le {word : Nat} (hpos : 0 < word) :
    2 ^ ((unitsOfWord word).log2 - 53) ≤ unitsOfWord word - unitsOfWord (word - 1) ∧
      2 ^ ((unitsOfWord word).log2 - 53) ≤ unitsOfWord (word + 1) - unitsOfWord word := by
  obtain ⟨shift, leading, rfl, hleading, hnormal⟩ := Number.exists_leading word
  have hunits := Number.unitsOfWord_leading hnormal hleading.le
  have hnext := Number.le_unitsOfWord_succ hnormal hleading.le
  have hpower := Nat.two_pow_pos shift
  have hsome : 0 < leading := by omega
  rw [hunits]
  rw [Nat.add_one_mul] at hnext
  have hbits : (leading * 2 ^ shift).log2 - 53 ≤ shift - 1 := by
    have hnonzero : leading * 2 ^ shift ≠ 0 := (Nat.mul_pos hsome hpower).ne'
    have hless : leading * 2 ^ shift < 2 ^ (53 + shift) := by
      rw [Nat.pow_add]
      exact Nat.mul_lt_mul_of_pos_right hleading hpower
    have hlog := (Nat.log2_lt hnonzero).mpr hless
    omega
  have hstep : 2 ^ ((leading * 2 ^ shift).log2 - 53) ≤ 2 ^ (shift - 1) :=
    Nat.pow_le_pow_right (by decide) hbits
  have hhalf : 2 ^ (shift - 1) ≤ 2 ^ shift := Nat.pow_le_pow_right (by decide) (Nat.sub_le _ _)
  refine ⟨?_, by omega⟩
  by_cases hmore : shift = 0 ∨ 2 ^ 52 < leading
  · rw [Number.unitsOfWord_pred hleading.le hsome hmore]
    have hless : (leading - 1) * 2 ^ shift + 2 ^ shift = leading * 2 ^ shift := by
      rw [Nat.sub_one_mul]
      exact Nat.sub_add_cancel (Nat.le_mul_of_pos_left _ hsome)
    omega
  · have hleast : leading = 2 ^ 52 := by omega
    obtain ⟨lower, rfl⟩ : ∃ lower, shift = lower + 1 := ⟨shift - 1, by omega⟩
    have hdouble : 2 ^ (lower + 1) = 2 ^ lower * 2 := pow_succ 2 lower
    rw [Nat.add_sub_cancel] at hstep
    rw [hleast, hdouble] at hstep
    rw [hleast, Number.unitsOfWord_pred_least, hdouble]
    omega

theorem unitsOfWord_succ_le {word : Nat} (hpos : 0 < word) :
    unitsOfWord (word + 1) ≤ 2 * unitsOfWord word := by
  obtain ⟨shift, leading, rfl, hleading, hnormal⟩ := Number.exists_leading word
  have hnext : shift = 0 ∨ 2 ^ 52 ≤ leading + 1 := hnormal.imp_right Nat.le_succ_of_le
  rw [Nat.add_assoc, Number.unitsOfWord_leading hnext hleading,
    Number.unitsOfWord_leading hnormal hleading.le, ← Nat.mul_assoc]
  exact Nat.mul_le_mul_right _ (by omega)

theorem value_normalize (d : Decimal) : d.normalize.value = d.value := by
  have hgo : ∀ fuel c e, (normalize.go fuel c e).value = (⟨c, e⟩ : Decimal).value := by
    intro fuel
    induction fuel with
    | zero => exact fun c e => rfl
    | succ fuel ih =>
        intro c e
        rw [normalize.go]
        split
        · rename_i hzero
          have hc : 10 * (c / 10) = c := by omega
          have hc' : (10 : ℚ) * (c / 10 : ℕ) = c := by exact_mod_cast hc
          rw [ih, value, value, zpow_add₀ (by norm_num), zpow_one]
          dsimp only
          rw [← hc']
          ring
        · rfl
  exact hgo _ _ _

theorem coefficient_normalize_le (d : Decimal) : d.normalize.coefficient ≤ d.coefficient := by
  have hgo : ∀ fuel c e, (normalize.go fuel c e).coefficient ≤ c := by
    intro fuel
    induction fuel with
    | zero => exact fun c e => Nat.le_refl c
    | succ fuel ih =>
        intro c e
        rw [normalize.go]
        split
        · exact (ih _ _).trans (Nat.div_le_self c 10)
        · exact Nat.le_refl c
  exact hgo _ _ _

section Shortest

variable {n : Number} (hfinite : n.isFinite) (hpos : 0 < n.magnitude.toNat)

include hfinite

omit hpos in
theorem log2_units_lt (hsome : 0 < n.units) : n.units.log2 < 2098 := by
  have hword : n.magnitude.toNat < infinityWord.toNat := by
    rw [Number.isFinite, decide_eq_true_eq, UInt64.lt_iff_toNat_lt] at hfinite
    exact hfinite
  have hlog : ∀ bits, n.units < 1 <<< bits → n.units.log2 < bits := by
    intro bits hless
    rw [Nat.shiftLeft_eq, Nat.one_mul] at hless
    exact (Nat.log2_lt hsome.ne').mpr hless
  exact hlog 2098 (range_bounds.1 ▸ Number.unitsOfWord_strictMono hword)

include hpos

/-- The search for the shortest decimal ends with a decimal that belongs to the number, on one
of the first grids. -/
theorem exists_shortest : ∃ d : Decimal, shortest n = d.normalize ∧
    topGrid n.units.log2 - 18 ≤ d.exponent ∧
      Rounds (d.value * unitsPerOne) n.magnitude.toNat := by
  have hbits := log2_units_lt hfinite (Number.unitsOfWord_strictMono hpos)
  obtain ⟨hlow, hhigh⟩ := step_le hpos
  have hfine := (finestGrid_spec n.units.log2 (List.mem_range.mpr hbits)).1
  rw [Nat.shiftLeft_eq, Nat.one_mul] at hfine
  have hfound : ∃ d, onGrid? (n.units + unitsOfWord (n.magnitude.toNat - 1)) (2 * n.units)
      (n.units + unitsOfWord (n.magnitude.toNat + 1)) (n.magnitude.toNat % 2 == 0)
      (topGrid n.units.log2 - (18 : ℕ)) = some d := by
    have hgap : ∀ gap, 2 ^ (n.units.log2 - 53) ≤ gap →
        2 * unitsPerOne * Nat.pow 10 (topGrid n.units.log2 - 18).toNat <
          2 * (gap * Nat.pow 10 (-(topGrid n.units.log2 - 18)).toNat) := by
      intro gap hgap
      have hscaled := Nat.mul_le_mul_right (Nat.pow 10 (-(topGrid n.units.log2 - 18)).toNat) hgap
      rw [Nat.mul_assoc 2 unitsPerOne]
      omega
    refine onGrid?_of_fine (hgap _ ?_) (hgap _ ?_)
    · refine Nat.le_trans hlow (Nat.le_of_eq ?_)
      change n.units - _ = _
      omega
    · refine Nat.le_trans hhigh (Nat.le_of_eq ?_)
      change _ - n.units = _
      omega
  obtain ⟨grid, hlater, hgrid⟩ := search_spec 18 (by decide : 18 < 22) hfound
  obtain ⟨hexponent, hinside⟩ := inside_of_onGrid? hgrid
  have hrounds := rounds_of_inside hinside
  rw [← hexponent] at hrounds hlater
  refine ⟨_, ?_, hlater, hrounds⟩
  unfold shortest
  dsimp only
  rw [if_neg hpos.ne']
  rfl

/-- The shortest decimal of a number other than zero belongs to it. -/
theorem rounds_shortest : Rounds ((shortest n).value * unitsPerOne) n.magnitude.toNat := by
  obtain ⟨d, hshortest, -, hrounds⟩ := exists_shortest hfinite hpos
  rw [hshortest, value_normalize]
  exact hrounds

/-- The shortest decimal of a number has a coefficient of 64 bits. -/
theorem coefficient_shortest_lt : (shortest n).coefficient < UInt64.size := by
  obtain ⟨d, hshortest, hgrid, hrounds⟩ := exists_shortest hfinite hpos
  have hsome : 0 < n.units := Number.unitsOfWord_strictMono hpos
  have hbits := log2_units_lt hfinite hsome
  have hshort := (finestGrid_spec n.units.log2 (List.mem_range.mpr hbits)).2
  rw [hshortest]
  refine Nat.lt_of_le_of_lt d.coefficient_normalize_le ?_
  generalize topGrid n.units.log2 - 18 = grid at hgrid hshort
  have hunits : (0 : ℚ) < unitsPerOne := by exact_mod_cast Number.unitsPerOne_pos
  have hstep : (0 : ℚ) < 10 ^ grid * unitsPerOne := mul_pos (zpow_pos (by norm_num) _) hunits
  have hnext : unitsOfWord (n.magnitude.toNat + 1) ≤ 2 * n.units := unitsOfWord_succ_le hpos
  have hnext' : (unitsOfWord (n.magnitude.toNat + 1) : ℚ) ≤ 2 * n.units := by exact_mod_cast hnext
  have hlog : (n.units : ℚ) < 2 * 2 ^ n.units.log2 := by
    have hless : n.units < 2 ^ (n.units.log2 + 1) := Nat.lt_log2_self
    rw [Nat.pow_succ, Nat.mul_comm] at hless
    exact_mod_cast hless
  have hvalue : d.value * unitsPerOne < 3 * 2 ^ n.units.log2 := by
    have hhigh := hrounds.high
    change 2 * (d.value * unitsPerOne) ≤ n.units + _ at hhigh
    linarith
  have hcoefficient : d.coefficient * (10 ^ grid * unitsPerOne) ≤ d.value * unitsPerOne := by
    rw [value, mul_assoc]
    refine mul_le_mul_of_nonneg_left (mul_le_mul_of_nonneg_right ?_ hunits.le) (Nat.cast_nonneg _)
    exact zpow_le_zpow_right₀ (by norm_num) hgrid
  have hbound : (3 * 2 ^ n.units.log2 : ℚ) < (UInt64.size : ℕ) * (10 ^ grid * unitsPerOne) := by
    have hdown : (0 : ℚ) < (10 ^ (-grid).toNat : ℕ) := by positivity
    rw [Nat.shiftLeft_eq, Nat.one_mul, Nat.mul_comm unitsPerOne] at hshort
    rw [ten_zpow, div_mul_eq_mul_div, mul_div_assoc', lt_div_iff₀ hdown]
    exact_mod_cast hshort
  have hless := (hcoefficient.trans_lt hvalue).trans hbound
  exact_mod_cast lt_of_mul_lt_mul_right hless hstep.le

end Shortest

end Decimal

end FieldCalculus
