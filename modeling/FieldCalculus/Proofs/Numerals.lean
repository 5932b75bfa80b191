import FieldCalculus.Document.Word
import FieldCalculus.Number.Layout
import FieldCalculus.Proofs.Shortest
import FieldCalculus.Proofs.Timestamp

/-!
Numbers are read back from their texts. Positional notation and scientific notation move the
point and name a power of ten, which leaves the value of the decimal as it was; so the decimal
that is read is one that belongs to the number.
-/

namespace FieldCalculus

open Text

namespace Text

theorem natOfDigits_append_replicate (digits : List Char) (n : Nat) :
    natOfDigits (digits ++ List.replicate n '0') = natOfDigits digits * 10 ^ n := by
  have hvalue : ∀ l, natOfDigits l = Nat.ofDigitChars 10 l 0 := fun _ => rfl
  rw [hvalue, hvalue, Nat.ofDigitChars_append, Nat.ofDigitChars_replicate_zero, Nat.mul_comm]

theorem natOfDigits_replicate_append (n : Nat) (digits : List Char) :
    natOfDigits (List.replicate n '0' ++ digits) = natOfDigits digits := by
  have hvalue : ∀ l, natOfDigits l = Nat.ofDigitChars 10 l 0 := fun _ => rfl
  rw [hvalue, hvalue, Nat.ofDigitChars_append, Nat.ofDigitChars_replicate_zero, Nat.mul_zero]

theorem natOfDigits_toDigits (n : Nat) : natOfDigits (Nat.toDigits 10 n) = n :=
  Nat.ofDigitChars_ten_toDigits

theorem isDigit_of_mem_toDigits {n : Nat} {c : Char} (h : c ∈ Nat.toDigits 10 n) : isDigit c :=
  Nat.isDigit_of_mem_toDigits (by decide) (by decide) h

end Text

namespace Word

/-! ## Reading decimals -/

section Decimals

variable {whole fraction rest : List Char} {e : Int}

theorem spanDigits_append (hwhole : ∀ c ∈ whole, isDigit c)
    (hrest : ∀ c ∈ rest.head?, isDigit c = false) : spanDigits (whole ++ rest) = (whole, rest) := by
  unfold spanDigits
  rw [List.takeWhile_append_of_pos hwhole, List.dropWhile_append_of_pos hwhole]
  cases rest with
  | nil => simp
  | cons c rest =>
      have hc := hrest c rfl
      simp [hc]

/-- The digits behind a point, if there is one, and what follows. -/
def spanFraction : List Char → List Char × List Char
  | '.' :: s => spanDigits s
  | s => ([], s)

theorem decimal?_of_span {s after : List Char} (hspan : spanDigits s = (whole, after))
    (hpoint : spanFraction after = (fraction, rest)) (hsome : whole ≠ [])
    (he : exponent? rest = some e) :
    decimal? s = some ⟨natOfDigits (whole ++ fraction), e - fraction.length⟩ := by
  have hempty : whole.isEmpty = false := by
    rw [List.isEmpty_eq_false_iff]
    exact hsome
  have hsteps : decimal? s = (do
      let digits := spanDigits s
      let parts := spanFraction digits.2
      if digits.1.isEmpty && parts.1.isEmpty then none
      let e ← exponent? parts.2
      return ⟨natOfDigits (digits.1 ++ parts.1), e - parts.1.length⟩) := rfl
  rw [hsteps, hspan]
  dsimp only
  rw [hpoint, hempty, he]
  rfl

theorem decimal?_point (hsome : whole ≠ []) (hwhole : ∀ c ∈ whole, isDigit c)
    (hfraction : ∀ c ∈ fraction, isDigit c) (hrest : ∀ c ∈ rest.head?, isDigit c = false)
    (he : exponent? rest = some e) :
    decimal? (whole ++ '.' :: (fraction ++ rest)) =
      some ⟨natOfDigits (whole ++ fraction), e - fraction.length⟩ := by
  have hpoint : ∀ c ∈ ('.' :: (fraction ++ rest)).head?, isDigit c = false := by
    rintro c ⟨⟩
    decide
  exact decimal?_of_span (spanDigits_append hwhole hpoint) (spanDigits_append hfraction hrest)
    hsome he

theorem decimal?_whole (hsome : whole ≠ []) (hwhole : ∀ c ∈ whole, isDigit c)
    (hrest : ∀ c ∈ rest.head?, isDigit c = false ∧ c ≠ '.') (he : exponent? rest = some e) :
    decimal? (whole ++ rest) = some ⟨natOfDigits whole, e⟩ := by
  have hpoint : spanFraction rest = ([], rest) := by
    unfold spanFraction
    split
    · exact absurd rfl (hrest '.' rfl).2
    · rfl
  have hread := decimal?_of_span (spanDigits_append hwhole fun c hc => (hrest c hc).1) hpoint
    hsome he
  rwa [List.append_nil, List.length_nil, Nat.cast_zero, Int.sub_zero] at hread

theorem signedNat?_toDigits (n : Nat) :
    signedNat? (Nat.toDigits 10 n) = some (n : Int) ∧
      signedNat? ('-' :: Nat.toDigits 10 n) = some (-(n : Int)) := by
  have hempty : (Nat.toDigits 10 n).isEmpty = false := by
    rw [List.isEmpty_eq_false_iff, ← List.length_pos_iff]
    exact Nat.length_toDigits_pos
  have hall : (Nat.toDigits 10 n).all isDigit = true :=
    List.all_eq_true.mpr fun c hc => isDigit_of_mem_toDigits hc
  have hdigits : signedNat?.digits? (Nat.toDigits 10 n) = some n := by
    unfold signedNat?.digits?
    rw [hempty, hall, natOfDigits_toDigits]
    rfl
  constructor
  · unfold signedNat?
    split
    · rename_i s hs
      have hdash := isDigit_of_mem_toDigits (hs ▸ List.mem_cons_self : '-' ∈ Nat.toDigits 10 n)
      cases hdash
    · rename_i s hs
      have hplus := isDigit_of_mem_toDigits (hs ▸ List.mem_cons_self : '+' ∈ Nat.toDigits 10 n)
      cases hplus
    · rw [hdigits]
      rfl
  · have hdash : signedNat? ('-' :: Nat.toDigits 10 n) =
        (signedNat?.digits? (Nat.toDigits 10 n)).map fun n => -(n : Int) := rfl
    rw [hdash, hdigits]
    rfl

end Decimals

end Word

namespace Number

/-! ## Layouts -/

theorem toList_toString (n : Nat) : (toString n).toList = Nat.toDigits 10 n := by
  rw [Nat.toString_eq_ofList_toDigits, String.toList_ofList]

/-- The digits before a point and those behind it, zeros filling what is missing. -/
def pointed (digits : List Char) (whole : Int) : List Char × List Char :=
  if whole ≤ 0 then (['0'], List.replicate (-whole).toNat '0' ++ digits)
  else if digits.length ≤ whole then
    (digits ++ List.replicate (whole - digits.length).toNat '0', ['0'])
  else (digits.take whole.toNat, digits.drop whole.toNat)

theorem isDigit_of_mem_zeros {n : Nat} {d : Char} (h : d ∈ List.replicate n '0') : isDigit d := by
  rw [List.eq_of_mem_replicate h]
  decide

/-- What the digits before and behind a point have to do with a coefficient: behind the point
there is at least one, and those beyond the coefficient are zeros. -/
structure Pointed (c : Nat) (whole : Int) (parts : List Char × List Char) : Prop where
  front : parts.1 ≠ []
  digits : ∀ d ∈ parts.1 ++ parts.2, isDigit d
  length : (parts.2.length : Int) = max 1 ((Nat.toDigits 10 c).length - whole)
  value : natOfDigits (parts.1 ++ parts.2) =
    c * 10 ^ (whole + parts.2.length - (Nat.toDigits 10 c).length).toNat

section Pointed

variable {c : Nat} {whole : Int} {wholeSuffix : String}

theorem pointed_before (h : whole ≤ 0) : Pointed c whole (pointed (Nat.toDigits 10 c) whole) := by
  have hsome := Nat.length_toDigits_pos (b := 10) (n := c)
  rw [pointed, if_pos h]
  refine ⟨by simp, ?_, ?_, ?_⟩
  · intro d hd
    rw [List.mem_append, List.mem_append, List.mem_singleton] at hd
    rcases hd with rfl | hzero | hdigit
    · decide
    · exact isDigit_of_mem_zeros hzero
    · exact isDigit_of_mem_toDigits hdigit
  · rw [List.length_append, List.length_replicate]
    omega
  · have hzeros : ['0'] ++ (List.replicate (-whole).toNat '0' ++ Nat.toDigits 10 c) =
        List.replicate ((-whole).toNat + 1) '0' ++ Nat.toDigits 10 c := by
      rw [List.replicate_succ]
      rfl
    have hnone : (whole + ((-whole).toNat + (Nat.toDigits 10 c).length : ℕ) -
        (Nat.toDigits 10 c).length).toNat = 0 := by omega
    rw [hzeros, natOfDigits_replicate_append, natOfDigits_toDigits, List.length_append,
      List.length_replicate, hnone, Nat.pow_zero, Nat.mul_one]

theorem pointed_behind (hpositive : ¬ whole ≤ 0) (hlong : (Nat.toDigits 10 c).length ≤ whole) :
    Pointed c whole (pointed (Nat.toDigits 10 c) whole) := by
  rw [pointed, if_neg hpositive, if_pos hlong]
  refine ⟨?_, ?_, ?_, ?_⟩
  · rw [← List.length_pos_iff, List.length_append]
    exact Nat.add_pos_left Nat.length_toDigits_pos _
  · intro d hd
    rw [List.mem_append, List.mem_append, List.mem_singleton] at hd
    rcases hd with (hdigit | hzero) | rfl
    · exact isDigit_of_mem_toDigits hdigit
    · exact isDigit_of_mem_zeros hzero
    · decide
  · rw [List.length_singleton]
    omega
  · have hzeros : Nat.toDigits 10 c ++
        List.replicate (whole - (Nat.toDigits 10 c).length).toNat '0' ++ ['0'] =
          Nat.toDigits 10 c ++
            List.replicate ((whole - (Nat.toDigits 10 c).length).toNat + 1) '0' := by
      rw [List.replicate_succ', List.append_assoc]
    rw [hzeros, natOfDigits_append_replicate, natOfDigits_toDigits, List.length_singleton]
    congr 2
    omega

theorem pointed_among (hpositive : ¬ whole ≤ 0) (hshort : ¬ (Nat.toDigits 10 c).length ≤ whole) :
    Pointed c whole (pointed (Nat.toDigits 10 c) whole) := by
  have hsplit := List.take_append_drop whole.toNat (Nat.toDigits 10 c)
  rw [pointed, if_neg hpositive, if_neg hshort]
  refine ⟨?_, ?_, ?_, ?_⟩
  · rw [← List.length_pos_iff, List.length_take]
    omega
  · intro d hd
    rw [hsplit] at hd
    exact isDigit_of_mem_toDigits hd
  · rw [List.length_drop]
    omega
  · have hnone : (whole + ((Nat.toDigits 10 c).length - whole.toNat : ℕ) -
        (Nat.toDigits 10 c).length).toNat = 0 := by omega
    rw [hsplit, natOfDigits_toDigits, List.length_drop, hnone, Nat.pow_zero, Nat.mul_one]

theorem pointed_spec (c : Nat) (whole : Int) :
    Pointed c whole (pointed (Nat.toDigits 10 c) whole) := by
  by_cases hsmall : whole ≤ 0
  · exact pointed_before hsmall
  by_cases hlong : (Nat.toDigits 10 c).length ≤ whole
  · exact pointed_behind hsmall hlong
  · exact pointed_among hsmall hlong

/-- Digits with a point among them stand for the decimal whose point stands there. -/
theorem Pointed.value_eq {parts : List Char × List Char} (h : Pointed c whole parts) :
    (natOfDigits (parts.1 ++ parts.2) : ℚ) * 10 ^ (-(parts.2.length : Int)) =
      c * 10 ^ (whole - (Nat.toDigits 10 c).length) := by
  have hten : (10 : ℚ) ≠ 0 := by norm_num
  have hlength := h.length
  rw [h.value, Nat.cast_mul, Nat.cast_pow, mul_assoc, ← zpow_natCast, Nat.cast_ofNat,
    ← zpow_add₀ hten]
  congr 2
  omega

theorem toList_placePoint (h : wholeSuffix = ".0" ∨ 0 < whole ∧ whole < (toString c).length) :
    (placePoint (toString c) whole wholeSuffix).toList =
      (pointed (Nat.toDigits 10 c) whole).1 ++ '.' :: (pointed (Nat.toDigits 10 c) whole).2 := by
  have hlength := Decimal.length_toString c
  unfold placePoint pointed
  dsimp only
  split
  · simp [String.toList_append]
  · rw [hlength]
    split
    · have hsuffix : wholeSuffix = ".0" := h.resolve_right fun hshort => by omega
      rw [String.toList_append, String.toList_append, String.toList_ofList, toList_toString, hsuffix]
      rfl
    · have htake : ((toString c).take whole.toNat).toString.toList =
          (toString c).toList.take whole.toNat := String.toList_copy_take
      have hdrop : ((toString c).drop whole.toNat).toString.toList =
          (toString c).toList.drop whole.toNat := String.toList_copy_drop
      rw [String.toList_append, String.toList_append, htake, hdrop, toList_toString,
        List.append_assoc]
      rfl

end Pointed

/-- What is written without a sign. -/
def unsignedText (layout : Layout) (d : Decimal) : String :=
  let digits := toString d.coefficient
  let power := d.exponent + digits.length - 1
  if layout.positional power then placePoint digits (power + 1) layout.wholeSuffix
  else scientific digits power layout.exponentSign

theorem text_eq (layout : Layout) {n : Number} (hnumber : n.isNaN = false)
    (hinfinite : n.isInfinite = false) :
    n.text layout =
      (if n.isNegative then "-" else "") ++ unsignedText layout (Decimal.shortest n) := by
  unfold text
  rw [hnumber, hinfinite, if_neg (by decide), if_neg (by decide)]
  change (if n.isNegative then "-" ++ unsignedText layout _ else unsignedText layout _) = _
  split
  · rfl
  · rw [String.empty_append]

/-- The exponent of scientific notation. -/
def exponentText (power : Int) : List Char :=
  'e' :: ((if power < 0 then ['-'] else []) ++ Nat.toDigits 10 power.natAbs)

theorem exponent?_exponentText (power : Int) :
    Word.exponent? (exponentText power) = some power := by
  obtain ⟨hplain, hsigned⟩ := Word.signedNat?_toDigits power.natAbs
  change Word.signedNat? _ = _
  split
  · rw [List.singleton_append, hsigned]
    congr 1
    omega
  · rw [List.nil_append, hplain]
    congr 1
    omega

/-- Texts that are read as decimals: digits, a point and digits, and an exponent, of which one
may be missing. -/
inductive Numeral : List Char → Decimal → Prop
  | positional {front back : List Char} (hsome : front ≠ [])
      (hdigits : ∀ c ∈ front ++ back, isDigit c) :
      Numeral (front ++ '.' :: back) ⟨natOfDigits (front ++ back), -(back.length : Int)⟩
  | whole {front : List Char} {e : Int} (hsome : front ≠ []) (hdigits : ∀ c ∈ front, isDigit c) :
      Numeral (front ++ exponentText e) ⟨natOfDigits front, e⟩
  | scientific {front back : List Char} {e : Int} (hsome : front ≠ [])
      (hdigits : ∀ c ∈ front ++ back, isDigit c) :
      Numeral (front ++ '.' :: (back ++ exponentText e))
        ⟨natOfDigits (front ++ back), e - back.length⟩

theorem Numeral.decimal? {s : List Char} {d : Decimal} (h : Numeral s d) :
    Word.decimal? s = some d := by
  cases h with
  | positional hsome hdigits =>
      rename_i front back
      have hread : Word.decimal? (front ++ '.' :: (back ++ [])) =
          some ⟨natOfDigits (front ++ back), 0 - back.length⟩ :=
        Word.decimal?_point hsome (fun c hc => hdigits c (List.mem_append_left _ hc))
          (fun c hc => hdigits c (List.mem_append_right _ hc)) nofun rfl
      rwa [List.append_nil, Int.zero_sub] at hread
  | whole hsome hdigits =>
      refine Word.decimal?_whole hsome hdigits ?_ (exponent?_exponentText _)
      rintro c ⟨⟩
      exact ⟨by decide, by decide⟩
  | scientific hsome hdigits =>
      refine Word.decimal?_point hsome (fun c hc => hdigits c (List.mem_append_left _ hc))
        (fun c hc => hdigits c (List.mem_append_right _ hc)) ?_ (exponent?_exponentText _)
      rintro c ⟨⟩
      decide

theorem toList_scientific (mantissa : String) (power : Int) :
    (mantissa ++ "e" ++ (if power < 0 then "-" else "") ++ toString power.natAbs).toList =
      mantissa.toList ++ exponentText power := by
  unfold exponentText
  split <;> simp [String.toList_append]

/-- The unsigned text of a decimal is a numeral of the same value. -/
theorem numeral_unsignedText (d : Decimal) :
    ∃ read, Numeral (unsignedText .yaml d).toList read ∧ read.value = d.value := by
  have hten : (10 : ℚ) ≠ 0 := by norm_num
  obtain ⟨c, e⟩ := d
  generalize hpower : e + (toString c).length - 1 = power
  have htext : unsignedText .yaml ⟨c, e⟩ =
      if Layout.structuredPositional power then placePoint (toString c) (power + 1) ".0"
      else scientific (toString c) power "" := by
    rw [← hpower]
    rfl
  rw [htext, Decimal.value]
  dsimp only
  split
  · have hpointed := pointed_spec c (power + 1)
    rw [toList_placePoint (Or.inl rfl)]
    generalize pointed (Nat.toDigits 10 c) (power + 1) = parts at hpointed ⊢
    refine ⟨⟨natOfDigits (parts.1 ++ parts.2), -(parts.2.length : Int)⟩, ?_, ?_⟩
    · exact .positional hpointed.front hpointed.digits
    · rw [Decimal.value, hpointed.value_eq, ← hpower, Decimal.length_toString]
      congr 2
      omega
  · unfold scientific
    dsimp only
    rw [toList_scientific]
    split
    · rename_i hshort
      have hlength := Nat.length_toDigits_pos (b := 10) (n := c)
      rw [Decimal.length_toString] at hshort hpower
      refine ⟨⟨natOfDigits (Nat.toDigits 10 c), power⟩, ?_, ?_⟩
      · rw [toList_toString]
        exact .whole (List.length_pos_iff.mp hlength) fun c hc => isDigit_of_mem_toDigits hc
      · rw [natOfDigits_toDigits, Decimal.value, ← hpower]
        congr 2
        dsimp only
        omega
    · rename_i hlong
      have hmore : 0 < (1 : Int) ∧ (1 : Int) < (toString c).length := by omega
      have hpointed := pointed_spec c 1
      rw [toList_placePoint (Or.inr hmore), List.append_assoc]
      generalize pointed (Nat.toDigits 10 c) 1 = parts at hpointed ⊢
      refine ⟨⟨natOfDigits (parts.1 ++ parts.2), power - parts.2.length⟩, ?_, ?_⟩
      · exact .scientific hpointed.front hpointed.digits
      · rw [Decimal.value]
        dsimp only
        rw [Int.sub_eq_add_neg, add_comm, zpow_add₀ hten, ← mul_assoc, hpointed.value_eq, mul_assoc,
          ← zpow_add₀ hten, ← hpower, Decimal.length_toString]
        congr 2
        omega

/-- A character of a numeral. -/
def isNumeric (c : Char) : Bool := isDigit c || c = '.' || c = 'e' || c = '-'

theorem isNumeric_of_isDigit {c : Char} (h : isDigit c) : isNumeric c := by
  unfold isNumeric
  rw [h]
  rfl

theorem isNumeric_of_mem_exponentText {power : Int} {c : Char} (h : c ∈ exponentText power) :
    isNumeric c := by
  rw [exponentText, List.mem_cons, List.mem_append] at h
  rcases h with rfl | hsign | hdigit
  · decide
  · split at hsign
    · rw [List.mem_singleton] at hsign
      subst hsign
      decide
    · cases hsign
  · exact isNumeric_of_isDigit (isDigit_of_mem_toDigits hdigit)

theorem Numeral.isNumeric {s : List Char} {d : Decimal} (h : Numeral s d) :
    ∀ c ∈ s, isNumeric c := by
  intro c hc
  cases h with
  | positional hsome hdigits =>
      rw [List.mem_append, List.mem_cons] at hc
      rcases hc with hfront | rfl | hback
      · exact isNumeric_of_isDigit (hdigits c (List.mem_append_left _ hfront))
      · decide
      · exact isNumeric_of_isDigit (hdigits c (List.mem_append_right _ hback))
  | whole hsome hdigits =>
      rcases List.mem_append.mp hc with hfront | hexponent
      · exact isNumeric_of_isDigit (hdigits c hfront)
      · exact isNumeric_of_mem_exponentText hexponent
  | scientific hsome hdigits =>
      rw [List.mem_append, List.mem_cons, List.mem_append] at hc
      rcases hc with hfront | rfl | hback | hexponent
      · exact isNumeric_of_isDigit (hdigits c (List.mem_append_left _ hfront))
      · decide
      · exact isNumeric_of_isDigit (hdigits c (List.mem_append_right _ hback))
      · exact isNumeric_of_mem_exponentText hexponent

/-- A numeral starts with a digit. -/
theorem Numeral.exists_cons {s : List Char} {d : Decimal} (h : Numeral s d) :
    ∃ first rest, s = first :: rest ∧ isDigit first := by
  have hfront : ∀ {front : List Char}, front ≠ [] → (∀ c ∈ front, isDigit c) → ∀ rest,
      ∃ first others, front ++ rest = first :: others ∧ isDigit first := by
    intro front hsome hdigits rest
    obtain ⟨first, others, rfl⟩ := List.exists_cons_of_ne_nil hsome
    exact ⟨first, others ++ rest, rfl, hdigits first List.mem_cons_self⟩
  cases h with
  | positional hsome hdigits =>
      exact hfront hsome (fun c hc => hdigits c (List.mem_append_left _ hc)) _
  | whole hsome hdigits => exact hfront hsome hdigits _
  | scientific hsome hdigits =>
      exact hfront hsome (fun c hc => hdigits c (List.mem_append_left _ hc)) _

/-- A digit is no letter of a name. -/
theorem ne_of_isDigit {c d : Char} (hc : isDigit c) (hd : isDigit d = false) : c ≠ d := by
  rintro rfl
  rw [hc] at hd
  cases hd

theorem toLower_of_isDigit {c : Char} (h : isDigit c) : c.toLower = c := by
  have hbounds : '0'.toNat ≤ c.toNat ∧ c.toNat ≤ '9'.toNat := Char.isDigit_iff_toNat.mp h
  have hnine : '9'.toNat = 57 := rfl
  have hsmall : ¬(c.val ≥ 'A'.val ∧ c.val ≤ 'Z'.val) := by
    rintro ⟨hletter, -⟩
    have hcode : 'A'.toNat ≤ c.toNat := hletter
    have hletters : 'A'.toNat = 65 := rfl
    omega
  unfold Char.toLower
  exact dif_neg hsmall

theorem Numeral.unsigned? {s : List Char} {d : Decimal} (h : Numeral s d) (negative : Bool) :
    Word.float?.unsigned? negative s = some (d.toNumber negative) := by
  obtain ⟨first, rest, rfl, hfirst⟩ := h.exists_cons
  have hname : ∀ name : String, name.toList.head?.any isDigit = false →
      String.ofList ((first :: rest).map Char.toLower) ≠ name := by
    rintro _ hname rfl
    rw [String.toList_ofList, List.map_cons, toLower_of_isDigit hfirst] at hname
    change isDigit first = false at hname
    rw [hfirst] at hname
    cases hname
  have hinf := decide_eq_false (hname "inf" rfl)
  have hinfinity := decide_eq_false (hname "infinity" rfl)
  unfold Word.float?.unsigned?
  dsimp only
  rw [hinf, hinfinity, if_neg (by decide), if_neg (hname "nan" rfl), h.decimal?]
  rfl

/-! ## Numbers -/

/-- The sign that is written. -/
def signText (n : Number) : List Char := if n.isNegative then ['-'] else []

theorem toList_text (layout : Layout) {n : Number} (hfinite : n.isFinite) :
    (n.text layout).toList =
      n.signText ++ (unsignedText layout (Decimal.shortest n)).toList := by
  rw [isFinite, decide_eq_true_eq, UInt64.lt_iff_toNat_lt] at hfinite
  have hnumber : n.isNaN = false := by
    rw [isNaN, decide_eq_false_iff_not, UInt64.lt_iff_toNat_lt]
    omega
  have hinfinite : n.isInfinite = false := by
    rw [isInfinite, beq_eq_false_iff_ne]
    intro hequal
    rw [hequal] at hfinite
    omega
  rw [text_eq layout hnumber hinfinite, String.toList_append, signText]
  split <;> rfl

/-- The names of infinity and of no number. -/
def names : List String :=
  [".inf", ".Inf", ".INF", "-.inf", "-.Inf", "-.INF", ".nan", ".NaN", ".NAN"]

/-- A word that has no plus in front and is no name is read as it stands. -/
theorem number?_eq_float? {word : String} (hplus : ∀ c ∈ word.toList.head?, c ≠ '+')
    (hname : word ∉ names) : Word.number? word = (Word.float? word.toList).filter isFinite := by
  have hnone : ∀ some : List String, some ⊆ names → ¬some.contains word = true := by
    intro some hsome hcontains
    exact hname (hsome (List.contains_iff_mem.mp hcontains))
  unfold Word.number?
  dsimp only
  split
  · rename_i hchars
    exact absurd rfl (hplus '+' (by rw [hchars]; rfl))
  · rename_i hchars
    exact absurd rfl (hplus '+' (by rw [hchars]; rfl))
  · rw [if_neg (by decide)]
    split
    · rename_i hchars
      exact absurd rfl (hplus '+' (by rw [hchars]; rfl))
    · rw [String.ofList_toList, if_neg (hnone _ (by decide)), if_neg (hnone _ (by decide)),
        if_neg (hnone _ (by decide))]

/-- A numeral with a sign is read as the number nearest to it, if there is one. -/
theorem number?_of_numeral {word : String} {negative : Bool} {s : List Char} {d : Decimal}
    (hword : word.toList = (if negative then ['-'] else []) ++ s) (h : Numeral s d) :
    Word.number? word = (some (d.toNumber negative)).filter isFinite := by
  obtain ⟨first, rest, rfl, hfirst⟩ := h.exists_cons
  have hdash : first ≠ '-' := ne_of_isDigit hfirst rfl
  have hplus : first ≠ '+' := ne_of_isDigit hfirst rfl
  have hpoint : first ≠ '.' := ne_of_isDigit hfirst rfl
  have hshape : ∀ name ∈ names, name.toList.head? = some '.' ∨ name.toList.take 2 = ['-', '.'] := by
    decide
  cases negative with
  | false =>
      rw [if_neg (by decide), List.nil_append] at hword
      have hread : Word.float? (first :: rest) = Word.float?.unsigned? false (first :: rest) := by
        unfold Word.float?
        split
        · rename_i hchars
          exact absurd (List.cons.inj hchars).1 hdash
        · rename_i hchars
          exact absurd (List.cons.inj hchars).1 hplus
        · rfl
      rw [number?_eq_float?, hword, hread, h.unsigned?]
      · rw [hword]
        rintro c ⟨⟩
        exact hplus
      · intro hname
        have hstart := hshape word hname
        rw [hword] at hstart
        rcases hstart with hstart | hstart
        · exact hpoint (Option.some.inj hstart)
        · exact hdash (List.cons.inj hstart).1
  | true =>
      rw [if_pos rfl, List.singleton_append] at hword
      have hread : Word.float? ('-' :: first :: rest) = Word.float?.unsigned? true (first :: rest) :=
        rfl
      rw [number?_eq_float?, hword, hread, h.unsigned?]
      · rw [hword]
        rintro c ⟨⟩
        decide
      · intro hname
        have hstart := hshape word hname
        rw [hword] at hstart
        rcases hstart with hstart | hstart
        · cases hstart
        · exact hpoint (List.cons.inj (List.cons.inj hstart).2).1

/-- A number is read back from its text. -/
theorem number?_text {n : Number} (hnumber : n.isNaN = false) :
    Word.number? (n.text .yaml) = some n := by
  rw [isNaN, decide_eq_false_iff_not, UInt64.lt_iff_toNat_lt] at hnumber
  rcases Nat.lt_or_eq_of_le (Nat.le_of_not_lt hnumber) with hless | hequal
  · have hfinite : n.isFinite := by
      rw [isFinite, decide_eq_true_eq, UInt64.lt_iff_toNat_lt]
      exact hless
    obtain ⟨read, hnumeral, hvalue⟩ := numeral_unsignedText (Decimal.shortest n)
    rcases Nat.eq_zero_or_pos n.magnitude.toNat with hzero | hpos
    · have heither : n = zero ∨ n = negativeZero := by
        cases hsign : n.isNegative with
        | false => exact Or.inl (ext_magnitude hsign hzero)
        | true => exact Or.inr (ext_magnitude hsign hzero)
      rcases heither with rfl | rfl
      · decide +kernel
      · decide +kernel
    · have hrounds := Decimal.rounds_shortest hfinite hpos
      rw [← hvalue] at hrounds
      rw [number?_of_numeral (toList_text .yaml hfinite) hnumeral, Decimal.toNumber_eq _ hpos hless hrounds,
        ofMagnitude_isNegative, Option.filter_some, if_pos hfinite]
  · have heither : n = infinity ∨ n = infinity.neg := by
      cases hsign : n.isNegative with
      | false => exact Or.inl (ext_magnitude hsign hequal)
      | true => exact Or.inr (ext_magnitude hsign hequal)
    rcases heither with rfl | rfl
    · decide +kernel
    · decide +kernel

end Number

end FieldCalculus
