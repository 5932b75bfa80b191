import FieldCalculus.Builtin.Call

/-!
What can go wrong in an operator: it may be given values of the wrong types, or the wrong number
of them. All other faults arise in the evaluation around it.
-/

namespace FieldCalculus

/-- A fault in the types or the number of the values that something is applied to. -/
def Fault.IsMisuse : Fault → Prop
  | .typeMismatch _ _ | .arityMismatch _ _ => True
  | .unboundVariable _ | .sensorUnavailable _ | .unalignedRead | .depthExceeded => False

namespace Builtin

variable {α β : Type}

/-- If the computation fails, then by misuse. -/
def FailsByMisuse (x : Except Fault α) : Prop := ∀ fault, x = .error fault → fault.IsMisuse

namespace FailsByMisuse

theorem ok (a : α) : FailsByMisuse (.ok a) := by
  intro fault h
  cases h

theorem bind {x : Except Fault α} {f : α → Except Fault β} (hx : FailsByMisuse x)
    (hf : ∀ a, FailsByMisuse (f a)) : FailsByMisuse (x >>= f) := by
  cases x with
  | error fault =>
      intro other h
      cases h
      exact hx fault rfl
  | ok a => exact hf a

theorem error {fault : Fault} (h : fault.IsMisuse) :
    FailsByMisuse (.error fault : Except Fault α) := by
  rintro _ ⟨⟩
  exact h

theorem mismatch (expected : Expectation) (v : Value) :
    FailsByMisuse (.error (v.mismatch expected) : Except Fault α) :=
  .error trivial

theorem arity (expected found : Nat) :
    FailsByMisuse (.error (.arityMismatch expected found) : Except Fault α) :=
  .error trivial

theorem asBool (v : Value) : FailsByMisuse v.asBool := by
  cases v <;> first | exact .ok _ | exact .mismatch _ _

theorem asNumber (v : Value) : FailsByMisuse v.asNumber := by
  cases v <;> first | exact .ok _ | exact .mismatch _ _

theorem asText (v : Value) : FailsByMisuse v.asText := by
  cases v <;> first | exact .ok _ | exact .mismatch _ _

theorem asTuple (v : Value) : FailsByMisuse v.asTuple := by
  cases v <;> first | exact .ok _ | exact .mismatch _ _

end FailsByMisuse

mutual

theorem failsByMisuse_order (a b : Value) : FailsByMisuse (a.order b) := by
  cases a with
  | tuple items =>
      cases b with
      | tuple others => exact failsByMisuse_orderItems items others
      | _ => exact .error trivial
  | _ => cases b <;> first | exact .ok _ | exact .error trivial

theorem failsByMisuse_orderItems (as bs : List Value) : FailsByMisuse (Value.orderItems as bs) := by
  cases as with
  | nil => cases bs <;> exact .ok _
  | cons a as =>
      cases bs with
      | nil => exact .ok _
      | cons b bs =>
          have hfirst := failsByMisuse_order a b
          have hrest := failsByMisuse_orderItems as bs
          rw [Value.orderItems]
          split
          · exact hrest
          · exact hfirst

end

theorem failsByMisuse_numeric (op : Number → Number → Number) (a b : Value) :
    FailsByMisuse (numeric op a b) :=
  (FailsByMisuse.asNumber a).bind fun _ => (FailsByMisuse.asNumber b).bind fun _ => .ok _

theorem failsByMisuse_ordered (test : Ordering → Bool) (a b : Value) :
    FailsByMisuse (ordered test a b) :=
  (failsByMisuse_order a b).bind fun _ => .ok _

theorem failsByMisuse_pick (side : Ordering) (a b : Value) : FailsByMisuse (pick side a b) :=
  (failsByMisuse_order a b).bind fun _ => .ok _

theorem failsByMisuse_item (collection index : Value) : FailsByMisuse (item collection index) := by
  refine (FailsByMisuse.asTuple collection).bind fun items => ?_
  refine (FailsByMisuse.asNumber index).bind fun n => ?_
  split
  · exact .ok _
  · exact .mismatch _ index

/-- Operators fail because of the types and the number of their arguments only. -/
theorem failsByMisuse_compute (b : Builtin) (args : List Value) : FailsByMisuse (b.compute args) := by
  unfold compute
  split
  case h_1 | h_2 | h_3 | h_4 => exact failsByMisuse_numeric _ _ _
  case h_5 | h_6 => exact (FailsByMisuse.asNumber _).bind fun _ => .ok _
  case h_7 | h_8 => exact failsByMisuse_pick _ _ _
  case h_9 | h_10 => exact .ok _
  case h_11 | h_12 | h_13 | h_14 => exact failsByMisuse_ordered _ _ _
  case h_15 =>
    refine (FailsByMisuse.asBool _).bind fun left => ?_
    cases left with
    | false => exact .ok _
    | true => exact (FailsByMisuse.asBool _).bind fun _ => .ok _
  case h_16 =>
    refine (FailsByMisuse.asBool _).bind fun left => ?_
    cases left with
    | false => exact (FailsByMisuse.asBool _).bind fun _ => .ok _
    | true => exact .ok _
  case h_17 => exact (FailsByMisuse.asBool _).bind fun _ => .ok _
  case h_18 =>
    refine (FailsByMisuse.asBool _).bind fun chosen => ?_
    cases chosen with
    | false => exact .ok _
    | true => exact .ok _
  case h_19 => exact .ok _
  case h_20 => exact failsByMisuse_item _ _
  case h_21 =>
      refine (FailsByMisuse.asText _).bind fun _ => (FailsByMisuse.asText _).bind fun _ => ?_
      exact .ok _
  case h_22 => exact .arity _ _

theorem failsByMisuse_call (b : Builtin) (args : List Value) : FailsByMisuse (b.call args) := by
  unfold call
  split
  · split
    · exact failsByMisuse_compute b args
    · exact .arity _ _
  · exact failsByMisuse_compute b args

end Builtin

end FieldCalculus
