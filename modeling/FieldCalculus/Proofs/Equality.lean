import FieldCalculus.Proofs.Comparison
import FieldCalculus.Proofs.Replacement

/-!
Equality and the order side by side. The order tells all numbers apart, while equality lets the two
zeros count as one and no NaN equal itself. The six comparisons agree but for these, in whatever
tuples they stand.
-/

namespace FieldCalculus

/-! ## What equality sees -/

namespace Number

/-- The number with the sign of a zero taken away. -/
def withoutZeroSign (n : Number) : Number := if n.isZero then zero else n

theorem isNaN_of_isZero {n : Number} (h : n.isZero) : n.isNaN = false := by
  rw [isZero, beq_iff_eq] at h
  rw [isNaN, h]
  decide

theorem equals_iff (a b : Number) :
    a.equals b ↔ a.isNaN = false ∧ a.withoutZeroSign = b.withoutZeroSign := by
  simp only [equals, Bool.and_eq_true, Bool.or_eq_true, Bool.not_eq_true', beq_iff_eq]
  constructor
  · rintro ⟨⟨ha, -⟩, hbits | ⟨hzero, hother⟩⟩
    · have hsame : a = b := by
        cases a
        cases b
        exact congrArg mk hbits
      exact ⟨ha, congrArg withoutZeroSign hsame⟩
    · simp [ha, withoutZeroSign, hzero, hother]
  · rintro ⟨ha, hsame⟩
    unfold withoutZeroSign at hsame
    by_cases hzero : a.isZero <;> by_cases hother : b.isZero <;>
      simp only [hzero, hother, if_true, if_false, Bool.false_eq_true] at hsame
    · exact ⟨⟨ha, isNaN_of_isZero hother⟩, Or.inr ⟨hzero, hother⟩⟩
    · exact absurd (hsame ▸ rfl : b.isZero) hother
    · exact absurd (hsame ▸ rfl : a.isZero) hzero
    · exact ⟨⟨ha, hsame ▸ ha⟩, Or.inl (congrArg bits hsame)⟩

end Number

namespace Value

/-- No number in the value is a NaN. -/
def isNaNFree (v : Value) : Bool := v.isKept fun n => !n.isNaN

/-- The values are the same up to the signs of zeros. -/
def SameUpToZeros (a b : Value) : Prop :=
  a.mapNumbers Number.withoutZeroSign = b.mapNumbers Number.withoutZeroSign

mutual

/-- Equality of data holds between values without NaNs that differ in signs of zeros at most. -/
theorem equals_iff {a b : Value} (ha : a.isData) (hb : b.isData) :
    a.equals b ↔ a.isNaNFree ∧ a.SameUpToZeros b := by
  cases a with
  | tuple as =>
      cases b with
      | tuple bs =>
          have hitems := @equalsAll_iff as bs ha hb
          simpa [equals, isNaNFree, isKept, SameUpToZeros, mapNumbers] using hitems
      | _ => simp [equals, SameUpToZeros, mapNumbers]
  | number n =>
      cases b with
      | number m =>
          simpa [equals, isNaNFree, isKept, SameUpToZeros, mapNumbers] using n.equals_iff m
      | _ => simp [equals, SameUpToZeros, mapNumbers]
  | builtin _ | closure _ _ _ _ => cases ha
  | _ => cases b <;> simp [equals, isNaNFree, isKept, SameUpToZeros, mapNumbers]

theorem equalsAll_iff {as bs : List Value} (ha : isDataAll as) (hb : isDataAll bs) :
    equalsAll as bs ↔ areKept (fun n => !n.isNaN) as ∧
      mapAllNumbers Number.withoutZeroSign as = mapAllNumbers Number.withoutZeroSign bs := by
  cases as with
  | nil => cases bs <;> simp [equalsAll, areKept, mapAllNumbers]
  | cons a as =>
      cases bs with
      | nil => simp [equalsAll, mapAllNumbers]
      | cons b bs =>
          simp only [isDataAll, Bool.and_eq_true] at ha hb
          have hhead := equals_iff ha.1 hb.1
          have hrest := equalsAll_iff ha.2 hb.2
          rw [isNaNFree, SameUpToZeros] at hhead
          simp only [equalsAll, areKept, mapAllNumbers, Bool.and_eq_true, hhead, hrest,
            List.cons.injEq]
          exact and_and_and_comm

end

end Value

/-! ## The six comparisons -/

/-- What the comparisons answer for two values. -/
structure Answers where
  eq : Bool
  neq : Bool
  lt : Bool
  le : Bool
  gt : Bool
  ge : Bool
deriving DecidableEq

namespace Answers

/-- Each comparison of the values gives its answer. -/
structure Of (a b : Value) (answers : Answers) : Prop where
  eq : Builtin.eq.call [a, b] = .ok (.bool answers.eq)
  neq : Builtin.neq.call [a, b] = .ok (.bool answers.neq)
  lt : Builtin.lt.call [a, b] = .ok (.bool answers.lt)
  le : Builtin.le.call [a, b] = .ok (.bool answers.le)
  gt : Builtin.gt.call [a, b] = .ok (.bool answers.gt)
  ge : Builtin.ge.call [a, b] = .ok (.bool answers.ge)

/-- Less, equal and greater exclude each other and leave nothing out, and the other comparisons
are made of them. -/
structure Agree (answers : Answers) : Prop where
  one : [answers.lt, answers.eq, answers.gt].count true = 1
  neq : answers.neq = !answers.eq
  le : answers.le = (answers.lt || answers.eq)
  ge : answers.ge = (answers.gt || answers.eq)

/-- The answers for values that stand so in the order and are equal or not. -/
def ofOrder (o : Ordering) (equal : Bool) : Answers where
  eq := equal
  neq := !equal
  lt := o == .lt
  le := o != .gt
  gt := o == .gt
  ge := o != .lt

theorem of_order {a b : Value} {o : Ordering} (h : a.order b = .ok o) :
    Of a b (ofOrder o (a.equals b)) := by
  have hordered (test : Ordering → Bool) : Builtin.ordered test a b = .ok (.bool (test o)) := by
    simp [Builtin.ordered, h, bind, Except.bind, pure, Except.pure]
  exact ⟨rfl, rfl, hordered _, hordered _, hordered _, hordered _⟩

theorem Of.unique {a b : Value} {answers answers' : Answers} (h : Of a b answers)
    (h' : Of a b answers') : answers = answers' := by
  have hbool {x y : Bool} {r : Except Fault Value} (hx : r = .ok (.bool x))
      (hy : r = .ok (.bool y)) : x = y := by simpa using hx.symm.trans hy
  cases answers
  cases answers'
  simp only [mk.injEq]
  exact ⟨hbool h.eq h'.eq, hbool h.neq h'.neq, hbool h.lt h'.lt, hbool h.le h'.le,
    hbool h.gt h'.gt, hbool h.ge h'.ge⟩

theorem agree_ofOrder {o : Ordering} {equal : Bool} (h : equal ↔ o = .eq) :
    (ofOrder o equal).Agree := by
  obtain rfl : equal = (o == .eq) := by
    rw [Bool.eq_iff_iff, beq_iff_eq]
    exact h
  cases o <;> exact ⟨rfl, rfl, rfl, rfl⟩

end Answers

/-- Data that the order tells apart or finds the same gets the same verdict from equality, unless
it is one value with a NaN inside, or differs in signs of zeros only. -/
theorem comparisons_agree {a b v : Value} (ha : a.isData) (hb : b.isData)
    (hless : Builtin.lt.call [a, b] = .ok v) :
    ∃ answers, Answers.Of a b answers ∧ answers.neq = !answers.eq ∧
      (¬(a = b ∧ ¬a.isNaNFree) → ¬(a ≠ b ∧ a.isNaNFree ∧ a.SameUpToZeros b) → answers.Agree) ∧
      (a = b → ¬a.isNaNFree → answers =
        { eq := false, neq := true, lt := false, le := true, gt := false, ge := true }) ∧
      (a ≠ b → a.isNaNFree → a.SameUpToZeros b → answers.eq = true ∧
        answers.gt = !answers.lt ∧ answers.le = answers.lt ∧ answers.ge = answers.gt) := by
  obtain ⟨o, horder, -⟩ := Builtin.bind_eq_ok hless
  have hequals := Value.equals_iff ha hb
  have hidentical : o = .eq ↔ a = b := by
    constructor
    · exact (Value.compares_of_order horder).identical
    · rintro rfl
      simpa [(Value.compares_self ha).order_eq] using horder.symm
  refine ⟨_, Answers.of_order horder, rfl, fun hnan hzeros => ?_, fun hsame hnan => ?_,
    fun hdiffers hfree hzeros => ?_⟩
  · refine Answers.agree_ofOrder ?_
    rw [hequals, hidentical]
    constructor
    · rintro ⟨hfree, hup⟩
      by_contra hdiffers
      exact hzeros ⟨hdiffers, hfree, hup⟩
    · rintro rfl
      by_contra hnot
      refine hnan ⟨rfl, fun hfree => hnot ⟨hfree, rfl⟩⟩
  · have hunequal : a.equals b = false := by simp [Bool.eq_false_iff, hequals, hnan]
    rw [hidentical.mpr hsame, hunequal]
    rfl
  · have hequal : a.equals b = true := hequals.mpr ⟨hfree, hzeros⟩
    have hnoteq : o ≠ .eq := fun h => hdiffers (hidentical.mp h)
    rw [hequal]
    cases o with
    | eq => exact absurd rfl hnoteq
    | lt | gt => exact ⟨rfl, rfl, rfl, rfl⟩

/-- A number less than another one deep inside tuples, behind two zeros of one sign. -/
theorem comparisons_agree_nested :
    let low := Value.tuple [.number .negativeZero, .tuple [.number 1, .text "x"]]
    let high := Value.tuple [.number .negativeZero, .tuple [.number .infinity]]
    (low.isData ∧ high.isData ∧ Builtin.lt.call [low, high] = .ok (.bool true)) ∧
      ∃ answers, Answers.Of low high answers ∧ answers.Agree := by
  intro low high
  have horder : low.order high = .ok .lt := by decide +kernel
  have hless := (Answers.of_order horder).lt
  have hdiffers : ¬low.SameUpToZeros high := by
    simp [low, high, Value.SameUpToZeros, Value.mapNumbers, Value.mapAllNumbers]
  obtain ⟨answers, hof, -, hagree, -⟩ := comparisons_agree rfl rfl hless
  refine ⟨⟨rfl, rfl, hless⟩, answers, hof, hagree ?_ ?_⟩
  · exact fun h => hdiffers (congrArg _ h.1)
  · exact fun h => hdiffers h.2.2

/-- A NaN is neither less than itself nor equal to it nor greater; the negative zero is less than
zero and equal to it. -/
theorem comparisons_disagree :
    let nan := Value.number .nan
    let low := Value.number .negativeZero
    let zero := Value.number .zero
    (nan.isData ∧ Builtin.lt.call [nan, nan] = .ok (.bool false) ∧
        ¬∃ answers, Answers.Of nan nan answers ∧ answers.Agree) ∧
      (low.isData ∧ zero.isData ∧ Builtin.lt.call [low, zero] = .ok (.bool true) ∧
        ¬∃ answers, Answers.Of low zero answers ∧ answers.Agree) := by
  intro nan low zero
  have hnan : nan.order nan = .ok .eq := rfl
  have hzero : low.order zero = .ok .lt := rfl
  refine ⟨⟨rfl, rfl, ?_⟩, rfl, rfl, rfl, ?_⟩
  · rintro ⟨answers, hof, hagree⟩
    obtain rfl := (Answers.of_order hnan).unique hof
    exact absurd hagree.one (by decide)
  · rintro ⟨answers, hof, hagree⟩
    obtain rfl := (Answers.of_order hzero).unique hof
    exact absurd hagree.one (by decide)

end FieldCalculus
