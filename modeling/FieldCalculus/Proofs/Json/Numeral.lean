import FieldCalculus.Proofs.Json.Scan

/-!
The texts of numbers, part by part. Their digits fit into the significand that the reader
gathers, so it takes in the decimal as it is written: the digits as a whole, and the power of
ten in which they are counted.
-/

namespace FieldCalculus

open Text

theorem Text.head?_toDigits_ne {n : Nat} (hpos : 0 < n) : (Nat.toDigits 10 n).head? ≠ some '0' := by
  induction n using Nat.strong_induction_on with
  | h n ih =>
      rw [Nat.toDigits_eq_if (by decide)]
      split
      · rename_i hsmall
        have hdigits : ∀ d < 10, 0 < d → some (Nat.digitChar d) ≠ some '0' := by decide
        exact hdigits n hsmall hpos
      · obtain ⟨first, rest, hcons⟩ := List.exists_cons_of_ne_nil
          (Nat.toDigits_ne_nil : Nat.toDigits 10 (n / 10) ≠ [])
        have hfirst := ih (n / 10) (by omega) (by omega)
        rw [hcons] at hfirst ⊢
        exact hfirst

namespace Json

namespace NumberText

/-! ## Gathering digits -/

theorem le_ofDigitChars (start : Nat) (digits : List Char) :
    start ≤ Nat.ofDigitChars 10 digits start := by
  have hpower : 0 < 10 ^ digits.length := Nat.pow_pos (by decide)
  have hle : start ≤ 10 ^ digits.length * start := Nat.le_mul_of_pos_left start hpower
  rw [Nat.ofDigitChars_eq_ofDigitChars_zero]
  exact hle.trans (Nat.le_add_right _ _)

/-- Digits that fit are taken in, every one of them. -/
theorem gather_of_lt (digits : List Char) : ∀ {start : Nat},
    Nat.ofDigitChars 10 digits start < UInt64.size →
      gather start digits = ⟨Nat.ofDigitChars 10 digits start, digits.length, 0⟩ := by
  induction digits with
  | nil => exact fun _ => rfl
  | cons c rest ih =>
      intro start hfits
      rw [Nat.ofDigitChars_cons] at hfits ⊢
      have hnext := le_ofDigitChars (10 * start + (c.toNat - '0'.toNat)) rest
      rw [gather]
      dsimp only
      rw [if_neg (by omega), ih hfits]
      rfl

/-- The decimal that a text stands for. -/
def decimal (t : NumberText) : Decimal :=
  let power : Int := match t.exponent with
    | none => 0
    | some (down, digits) => if down then -(natOfDigits digits : Int) else natOfDigits digits
  ⟨natOfDigits (t.whole ++ t.fraction.getD []), power - (t.fraction.getD []).length⟩

theorem clampExponent_of_le {e : Int} (hlow : Int32.minValue.toInt ≤ e)
    (hhigh : e ≤ greatestExponent) : clampExponent e = e := by
  rw [clampExponent, min_eq_left hhigh, max_eq_right hlow]

/-- If the digits fit and the exponent is not out of all bounds, the reader scales the decimal
that is written. -/
theorem float?_of_lt {t : NumberText} (hfits : t.decimal.coefficient < UInt64.size)
    (hpower : ∀ e ∈ t.exponent, (natOfDigits e.2 : Int) ≤ greatestExponent)
    (hlow : Int32.minValue.toInt ≤ t.decimal.exponent)
    (hhigh : t.decimal.exponent ≤ greatestExponent) :
    t.float? = (scale t.decimal.coefficient t.decimal.exponent).map t.signed := by
  obtain ⟨negative, whole, fraction, e⟩ := t
  have hvalue : natOfDigits (whole ++ fraction.getD []) =
      Nat.ofDigitChars 10 (fraction.getD []) (Nat.ofDigitChars 10 whole 0) :=
    Nat.ofDigitChars_append 0
  unfold decimal at *
  dsimp only at *
  rw [hvalue] at hfits ⊢
  have hwhole := gather_of_lt whole (Nat.lt_of_le_of_lt (le_ofDigitChars _ _) hfits)
  have hfraction := gather_of_lt (fraction.getD []) hfits
  rw [float?]
  dsimp only
  rw [hwhole]
  dsimp only
  rw [hfraction]
  dsimp only
  rw [Nat.cast_zero]
  cases e with
  | none => rfl
  | some e =>
      obtain ⟨down, digits⟩ := e
      have hle := hpower (down, digits) rfl
      dsimp only at hle hlow hhigh ⊢
      rw [if_neg (by omega)]
      congr 2
      cases down with
      | false =>
          rw [if_neg (by decide)] at hlow hhigh ⊢
          rw [if_neg (by decide), Int.zero_sub, Int.add_comm, ← Int.sub_eq_add_neg]
          exact clampExponent_of_le hlow hhigh
      | true =>
          rw [if_pos rfl] at hlow hhigh ⊢
          rw [if_pos rfl, Int.zero_sub, Int.sub_eq_add_neg, Int.add_comm, ← Int.sub_eq_add_neg]
          exact clampExponent_of_le hlow hhigh

/-! ## Parts of decimals -/

section Decimal

variable {negative : Bool} {d : Decimal}

/-- The power of ten that the first digit of a decimal stands for. -/
def leadingPower (d : Decimal) : Int := d.exponent + (Nat.toDigits 10 d.coefficient).length - 1

/-- The text of a decimal in its parts. -/
def ofDecimal (negative : Bool) (d : Decimal) : NumberText :=
  let digits := Nat.toDigits 10 d.coefficient
  let power := leadingPower d
  if Number.Layout.structuredPositional power then
    ⟨negative, (Number.pointed digits (power + 1)).1, (Number.pointed digits (power + 1)).2, none⟩
  else
    let exponent := (decide (power < 0), Nat.toDigits 10 power.natAbs)
    if digits.length ≤ 1 then ⟨negative, digits, none, exponent⟩
    else ⟨negative, (Number.pointed digits 1).1, (Number.pointed digits 1).2, exponent⟩

theorem negative_ofDecimal (negative : Bool) (d : Decimal) :
    (ofDecimal negative d).negative = negative := by
  unfold ofDecimal
  dsimp only
  split_ifs <;> rfl

theorem toList_scientific (mantissa : String) (power : Int) :
    (mantissa ++ "e" ++ (if power < 0 then "-" else "+") ++ toString power.natAbs).toList =
      mantissa.toList ++ exponentChars (some (decide (power < 0), Nat.toDigits 10 power.natAbs)) := by
  unfold exponentChars
  split_ifs <;> simp_all [String.toList_append]

theorem unsignedChars_ofDecimal (negative : Bool) (d : Decimal) :
    (ofDecimal negative d).unsignedChars = (Number.unsignedText .json d).toList := by
  have hlength := Decimal.length_toString d.coefficient
  have htext : Number.unsignedText .json d =
      if Number.Layout.structuredPositional (leadingPower d) then
        Number.placePoint (toString d.coefficient) (leadingPower d + 1) ".0"
      else Number.scientific (toString d.coefficient) (leadingPower d) "+" := by
    rw [leadingPower, ← hlength]
    rfl
  rw [htext, ofDecimal]
  dsimp only
  split
  · rw [Number.toList_placePoint (Or.inl rfl), unsignedChars]
    exact congrArg _ (List.append_nil _)
  · unfold Number.scientific
    dsimp only
    rw [toList_scientific, hlength]
    split
    · rw [Number.toList_toString]
      rfl
    · rw [Number.toList_placePoint (Or.inr (by omega)), List.append_assoc]
      rfl

/-- A number is written as its parts. -/
theorem chars_ofDecimal {n : Number} (hfinite : n.isFinite) :
    (n.text .json).toList = (ofDecimal n.isNegative (Decimal.shortest n)).chars := by
  rw [Number.toList_text .json hfinite, chars, unsignedChars_ofDecimal, negative_ofDecimal]
  rfl

theorem isDigits_toDigits (n : Nat) : IsDigits (Nat.toDigits 10 n) :=
  ⟨Nat.toDigits_ne_nil, fun _ hc => isDigit_of_mem_toDigits hc⟩

theorem isDigits_parts {c : Nat} {whole : Int} {parts : List Char × List Char}
    (h : Number.Pointed c whole parts) : IsDigits parts.1 ∧ IsDigits parts.2 := by
  have hlength := h.length
  refine ⟨⟨h.front, fun c hc => h.digits c (List.mem_append_left _ hc)⟩, ?_,
    fun c hc => h.digits c (List.mem_append_right _ hc)⟩
  rw [← List.length_pos_iff]
  omega

/-- Digits before a point start with zero only if there are no others. -/
theorem lead_pointed {c : Nat} (hpos : 0 < c) (whole : Int) :
    (Number.pointed (Nat.toDigits 10 c) whole).1 = ['0'] ∨
      (Number.pointed (Nat.toDigits 10 c) whole).1.head? ≠ some '0' := by
  obtain ⟨first, rest, hcons⟩ := List.exists_cons_of_ne_nil
    (Nat.toDigits_ne_nil : Nat.toDigits 10 c ≠ [])
  have hfirst := head?_toDigits_ne hpos
  rw [hcons] at hfirst ⊢
  unfold Number.pointed
  split
  · exact Or.inl rfl
  · right
    split
    · exact hfirst
    · obtain ⟨before, hbefore⟩ : ∃ before, whole.toNat = before + 1 := ⟨whole.toNat - 1, by omega⟩
      rw [hbefore]
      exact hfirst

theorem regular_ofDecimal (negative : Bool) (hzero : d.coefficient = 0 → d.exponent = 0) :
    (ofDecimal negative d).Regular := by
  rcases Nat.eq_zero_or_pos d.coefficient with hc | hc
  · obtain ⟨c, e⟩ := d
    dsimp only at hc
    obtain rfl : e = 0 := hzero hc
    subst hc
    have hdigit : IsDigits ['0'] :=
      ⟨List.cons_ne_nil _ _, List.forall_mem_singleton.mpr (by decide)⟩
    exact ⟨hdigit, Or.inl rfl, by rintro _ ⟨⟩; exact hdigit, nofun⟩
  · have hpower := isDigits_toDigits (leadingPower d).natAbs
    have hlead := lead_pointed hc
    have hparts := fun whole => isDigits_parts (Number.pointed_spec d.coefficient whole)
    unfold ofDecimal
    dsimp only
    split_ifs
    · exact ⟨(hparts _).1, hlead _, by rintro _ ⟨⟩; exact (hparts _).2, nofun⟩
    · exact ⟨isDigits_toDigits _, Or.inr (head?_toDigits_ne hc), nofun,
        by rintro _ ⟨⟩; exact hpower⟩
    · exact ⟨(hparts _).1, hlead _, by rintro _ ⟨⟩; exact (hparts _).2,
        by rintro _ ⟨⟩; exact hpower⟩

/-! ## What is taken in -/

/-- A decimal as it is written: the digits as a whole, a zero behind the point among them, and
the power of ten in which they are counted. -/
def asWritten (d : Decimal) : Decimal :=
  if Number.Layout.structuredPositional (leadingPower d) && decide (0 ≤ d.exponent) then
    ⟨d.coefficient * Nat.pow 10 (d.exponent.toNat + 1), -1⟩
  else d

theorem value_asWritten (d : Decimal) : (asWritten d).value = d.value := by
  unfold asWritten
  split
  · rename_i hwhole
    rw [Bool.and_eq_true, decide_eq_true_eq] at hwhole
    have hten : (10 : ℚ) ≠ 0 := by norm_num
    have hpow : Nat.pow 10 (d.exponent.toNat + 1) = 10 ^ (d.exponent.toNat + 1) := rfl
    rw [Decimal.value, Decimal.value]
    dsimp only
    rw [hpow, Nat.cast_mul, Nat.cast_pow, mul_assoc, ← zpow_natCast, Nat.cast_ofNat,
      ← zpow_add₀ hten]
    congr 2
    omega
  · rfl

/-- The digits of a number in positional notation are few. -/
theorem coefficient_asWritten_lt (hsmall : d.coefficient < UInt64.size) :
    (asWritten d).coefficient < UInt64.size := by
  unfold asWritten
  split
  · rename_i hwhole
    rw [Bool.and_eq_true, decide_eq_true_eq, Number.Layout.structuredPositional, Bool.and_eq_true,
      decide_eq_true_eq, decide_eq_true_eq, leadingPower] at hwhole
    have hlt : d.coefficient < 10 ^ (Nat.toDigits 10 d.coefficient).length :=
      (Nat.length_toDigits_le_iff (by decide) Nat.length_toDigits_pos).mp (Nat.le_refl _)
    have hpos : 0 < 10 ^ (d.exponent.toNat + 1) := Nat.pow_pos (by decide)
    calc d.coefficient * 10 ^ (d.exponent.toNat + 1)
        < 10 ^ (Nat.toDigits 10 d.coefficient).length * 10 ^ (d.exponent.toNat + 1) :=
          Nat.mul_lt_mul_of_pos_right hlt hpos
      _ = 10 ^ ((Nat.toDigits 10 d.coefficient).length + (d.exponent.toNat + 1)) :=
          (Nat.pow_add _ _ _).symm
      _ ≤ 10 ^ 17 := Nat.pow_le_pow_right (by decide) (by omega)
      _ < UInt64.size := by decide
  · exact hsmall

/-- The text of a decimal stands for the decimal as it is written. -/
theorem decimal_ofDecimal (negative : Bool) (d : Decimal) :
    (ofDecimal negative d).decimal = asWritten d := by
  obtain ⟨c, e⟩ := d
  have hpower : e + (Nat.toDigits 10 c).length - 1 = leadingPower ⟨c, e⟩ := rfl
  unfold ofDecimal asWritten
  dsimp only
  generalize leadingPower ⟨c, e⟩ = power at hpower ⊢
  have hsome := Nat.length_toDigits_pos (b := 10) (n := c)
  have hsigned : (if decide (power < 0) then -(natOfDigits (Nat.toDigits 10 power.natAbs) : Int)
      else natOfDigits (Nat.toDigits 10 power.natAbs)) = power := by
    rw [natOfDigits_toDigits]
    split_ifs with hnegative <;> rw [decide_eq_true_eq] at hnegative <;> omega
  by_cases hpositional : Number.Layout.structuredPositional power
  · obtain ⟨-, -, hlength, hvalue⟩ := Number.pointed_spec c (power + 1)
    rw [if_pos hpositional, hpositional, Bool.true_and, decimal]
    dsimp only [Option.getD_some]
    rw [hvalue, hlength]
    split_ifs with hwhole
    · rw [decide_eq_true_eq] at hwhole
      have hzeros : (power + 1 + max 1 ((Nat.toDigits 10 c).length - (power + 1)) -
          (Nat.toDigits 10 c).length).toNat = e.toNat + 1 := by omega
      rw [hzeros, Decimal.mk.injEq]
      exact ⟨rfl, by omega⟩
    · rw [decide_eq_true_eq] at hwhole
      have hnone : (power + 1 + max 1 ((Nat.toDigits 10 c).length - (power + 1)) -
          (Nat.toDigits 10 c).length).toNat = 0 := by omega
      rw [hnone, Nat.pow_zero, Nat.mul_one, Decimal.mk.injEq]
      exact ⟨rfl, by omega⟩
  · rw [if_neg hpositional, eq_false_of_ne_true hpositional, Bool.false_and]
    rw [if_neg (by decide : ¬false = true)]
    split
    · rw [decimal]
      dsimp only [Option.getD_none]
      rw [hsigned, List.append_nil, natOfDigits_toDigits, Decimal.mk.injEq, List.length_nil]
      exact ⟨rfl, by omega⟩
    · obtain ⟨-, -, hlength, hvalue⟩ := Number.pointed_spec c 1
      have hnone : (1 + max 1 ((Nat.toDigits 10 c).length - (1 : Int)) -
          (Nat.toDigits 10 c).length).toNat = 0 := by omega
      rw [decimal]
      dsimp only [Option.getD_some]
      rw [hsigned, hvalue, hlength, hnone, Nat.pow_zero, Nat.mul_one, Decimal.mk.injEq]
      exact ⟨rfl, by omega⟩

theorem exponent_ofDecimal {negative : Bool} {d : Decimal} :
    ∀ e ∈ (ofDecimal negative d).exponent, natOfDigits e.2 = (leadingPower d).natAbs := by
  have hdigits := natOfDigits_toDigits (leadingPower d).natAbs
  unfold ofDecimal
  dsimp only
  split_ifs
  · exact nofun
  · rintro _ ⟨⟩
    exact hdigits
  · rintro _ ⟨⟩
    exact hdigits

theorem exponent_asWritten (d : Decimal) :
    (asWritten d).exponent = -1 ∨ (asWritten d).exponent = d.exponent := by
  unfold asWritten
  split
  · exact Or.inl rfl
  · exact Or.inr rfl

theorem length_toDigits_le (hsmall : d.coefficient < UInt64.size) :
    (Nat.toDigits 10 d.coefficient).length ≤ 20 :=
  (Nat.length_toDigits_le_iff (by decide) (by decide)).mpr (Nat.lt_trans hsmall (by decide))

/-- The reader scales a decimal as it is written. -/
theorem float?_ofDecimal (negative : Bool) (hsmall : d.coefficient < UInt64.size)
    (hlow : -324 ≤ d.exponent + (Nat.toDigits 10 d.coefficient).length)
    (hhigh : d.exponent + (Nat.toDigits 10 d.coefficient).length ≤ 309) :
    (ofDecimal negative d).float? =
      (scale (asWritten d).coefficient (asWritten d).exponent).map fun value =>
        if negative then value.neg else value := by
  have hlimit : greatestExponent = 2147483647 := rfl
  have hleast : Int32.minValue.toInt = -2147483648 := rfl
  have hsome := Nat.length_toDigits_pos (b := 10) (n := d.coefficient)
  have hlength := length_toDigits_le hsmall
  have hwritten := exponent_asWritten d
  have hsigned : (ofDecimal negative d).signed = fun value =>
      if negative then value.neg else value := by
    unfold signed
    rw [negative_ofDecimal]
  rw [← decimal_ofDecimal negative, ← hsigned] at *
  refine float?_of_lt ?_ ?_ (by omega) (by omega)
  · rw [decimal_ofDecimal]
    exact coefficient_asWritten_lt hsmall
  · intro e he
    rw [exponent_ofDecimal e he, leadingPower]
    omega

end Decimal

end NumberText

end Json

end FieldCalculus
