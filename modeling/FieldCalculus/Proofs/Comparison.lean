import FieldCalculus.Proofs.Order
import FieldCalculus.Proofs.Provenance

/-!
The order of values as a relation. Which values compare is read off their shape; what decides
between two tuples is the first place where they differ, and what stands behind it is not looked at.
There the order is partial, but as far as it goes it is a linear order of identical things.
-/

namespace FieldCalculus

/-! ## The order of atoms -/

namespace Number

instance : Std.TransCmp totalOrder := inferInstanceAs (Std.TransCmp (compareOn rank))

instance : Std.LawfulEqCmp totalOrder where
  eq_of_compare h := rank_injective (Std.LawfulEqCmp.eq_of_compare h)

end Number

/-- Along a chain that does not fall, the first rise decides. -/
theorem then_of_isLE {α : Type} {cmp : α → α → Ordering} [Std.TransCmp cmp] {a b c : α}
    (hfirst : (cmp a b).isLE) (hsecond : (cmp b c).isLE) : cmp a c = (cmp a b).then (cmp b c) := by
  cases hab : cmp a b with
  | lt => exact Std.TransCmp.lt_of_lt_of_isLE hab hsecond
  | eq => exact Std.TransCmp.congr_left hab
  | gt => simp [hab] at hfirst

theorem lt_of_isLE {o : Ordering} (h : o.isLE) (hdiffers : o ≠ .eq) : o = .lt :=
  (Ordering.isLE_iff_eq_lt_or_eq_eq.mp h).resolve_right hdiffers

theorem then_lt_of_isLE {o : Ordering} (h : o.isLE) : o.then .lt = .lt := by
  cases o with
  | lt | eq => rfl
  | gt => cases h

namespace Value

/-! ## Values that compare -/

mutual

/-- The values compare, and the first one stands so against the second. -/
inductive Compares : Value → Value → Ordering → Prop
  | unit : Compares .unit .unit .eq
  | bool (a b : Bool) : Compares (.bool a) (.bool b) (compare a b)
  | number (a b : Number) : Compares (.number a) (.number b) (a.totalOrder b)
  | text (a b : String) : Compares (.text a) (.text b) (compare a b)
  | tuple {as bs : List Value} {o : Ordering} :
    ItemsCompare as bs o → Compares (.tuple as) (.tuple bs) o

/-- The lists compare up to their first difference, or as far as the shorter one goes. -/
inductive ItemsCompare : List Value → List Value → Ordering → Prop
  | done : ItemsCompare [] [] .eq
  | shorter (b : Value) (bs : List Value) : ItemsCompare [] (b :: bs) .lt
  | longer (a : Value) (as : List Value) : ItemsCompare (a :: as) [] .gt
  | later {a b : Value} {as bs : List Value} {o : Ordering} :
    Compares a b .eq → ItemsCompare as bs o → ItemsCompare (a :: as) (b :: bs) o
  | here {a b : Value} {o : Ordering} (as bs : List Value) :
    Compares a b o → o ≠ .eq → ItemsCompare (a :: as) (b :: bs) o

end

theorem orderItems_later {a b : Value} (h : a.order b = .ok .eq) (as bs : List Value) :
    orderItems (a :: as) (b :: bs) = orderItems as bs := by
  simp [orderItems, h]

theorem orderItems_here {a b : Value} {o : Ordering} (h : a.order b = .ok o) (ho : o ≠ .eq)
    (as bs : List Value) : orderItems (a :: as) (b :: bs) = .ok o := by
  cases o with
  | eq => exact absurd rfl ho
  | lt | gt => simp [orderItems, h]

mutual

theorem Compares.order_eq {a b : Value} {o : Ordering} : Compares a b o → a.order b = .ok o
  | .unit | .bool _ _ | .number _ _ | .text _ _ => by simp [order]
  | .tuple items => by simpa [order] using items.orderItems_eq

theorem ItemsCompare.orderItems_eq {as bs : List Value} {o : Ordering} :
    ItemsCompare as bs o → orderItems as bs = .ok o
  | .done | .shorter _ _ | .longer _ _ => by simp [orderItems]
  | .later head rest => (orderItems_later head.order_eq _ _).trans rest.orderItems_eq
  | .here as bs head differs => orderItems_here head.order_eq differs as bs

end

mutual

theorem compares_of_order {a b : Value} {o : Ordering} (h : a.order b = .ok o) :
    Compares a b o := by
  cases a with
  | unit => cases b <;> cases h; exact .unit
  | bool x => cases b <;> cases h; exact .bool x _
  | number n => cases b <;> cases h; exact .number n _
  | text s => cases b <;> cases h; exact .text s _
  | tuple as =>
      cases b with
      | tuple bs =>
          rw [order] at h
          exact .tuple (itemsCompare_of_orderItems h)
      | _ => cases h
  | builtin _ | closure _ _ _ _ => cases b <;> cases h

theorem itemsCompare_of_orderItems {as bs : List Value} {o : Ordering}
    (h : orderItems as bs = .ok o) : ItemsCompare as bs o := by
  cases as with
  | nil =>
      cases bs with
      | nil => cases h; exact .done
      | cons b bs => cases h; exact .shorter b bs
  | cons a as =>
      cases bs with
      | nil => cases h; exact .longer a as
      | cons b bs =>
          cases hhead : a.order b with
          | error fault => simp [orderItems, hhead] at h
          | ok first =>
              have hcompares := compares_of_order hhead
              cases first with
              | eq =>
                  rw [orderItems_later hhead] at h
                  exact .later hcompares (itemsCompare_of_orderItems h)
              | lt | gt =>
                  rw [orderItems_here hhead (by simp)] at h
                  cases h
                  exact .here as bs hcompares (by simp)

end

/-! ## Laws of the order -/

mutual

theorem Compares.swap {a b : Value} {o : Ordering} : Compares a b o → Compares b a o.swap
  | .unit => .unit
  | .bool a b => by simpa only [← Std.OrientedCmp.eq_swap] using Compares.bool b a
  | .number a b => by simpa only [← Std.OrientedCmp.eq_swap] using Compares.number b a
  | .text a b => by simpa only [← Std.OrientedCmp.eq_swap] using Compares.text b a
  | .tuple items => .tuple items.swap

theorem ItemsCompare.swap {as bs : List Value} {o : Ordering} :
    ItemsCompare as bs o → ItemsCompare bs as o.swap
  | .done => .done
  | .shorter b bs => .longer b bs
  | .longer a as => .shorter a as
  | .later head rest => .later head.swap rest.swap
  | .here as bs head differs => .here bs as head.swap fun hsame => differs (by simpa using hsame)

end

mutual

/-- Only identical values stand equal, their numbers bit for bit. -/
theorem Compares.identical {a b : Value} {o : Ordering} : Compares a b o → o = .eq → a = b
  | .unit, _ => rfl
  | .bool _ _, h => congrArg Value.bool (Std.LawfulEqCmp.eq_of_compare h)
  | .number _ _, h => congrArg Value.number (Std.LawfulEqCmp.eq_of_compare h)
  | .text _ _, h => congrArg Value.text (Std.LawfulEqCmp.eq_of_compare h)
  | .tuple items, h => congrArg Value.tuple (items.identical h)

theorem ItemsCompare.identical {as bs : List Value} {o : Ordering} :
    ItemsCompare as bs o → o = .eq → as = bs
  | .done, _ => rfl
  | .later head rest, h => congrArg₂ List.cons (head.identical rfl) (rest.identical h)
  | .here _ _ _ differs, h => absurd h differs

end

mutual

/-- Data compares with itself. -/
theorem compares_self {v : Value} (h : v.isData) : Compares v v .eq := by
  cases v with
  | unit => exact .unit
  | bool b => simpa using Compares.bool b b
  | number n => simpa [Std.ReflCmp.compare_self] using Compares.number n n
  | text s => simpa using Compares.text s s
  | tuple items => exact .tuple (itemsCompare_self h)
  | builtin _ | closure _ _ _ _ => cases h

theorem itemsCompare_self {vs : List Value} (h : isDataAll vs) : ItemsCompare vs vs .eq := by
  cases vs with
  | nil => exact .done
  | cons v rest =>
      simp only [isDataAll, Bool.and_eq_true] at h
      exact .later (compares_self h.1) (itemsCompare_self h.2)

end

mutual

/-- Where neither of two steps falls, the values at their ends compare: what decides between them
stands no further back than what decides a step. -/
theorem Compares.trans {a b c : Value} {o o' : Ordering} (first : Compares a b o)
    (second : Compares b c o') (h : o.isLE) (h' : o'.isLE) : Compares a c (o.then o') := by
  cases first with
  | unit => exact second
  | bool a _ => cases second with | bool _ c => exact then_of_isLE h h' ▸ .bool a c
  | number a _ => cases second with | number _ c => exact then_of_isLE h h' ▸ .number a c
  | text a _ => cases second with | text _ c => exact then_of_isLE h h' ▸ .text a c
  | tuple items => cases second with | tuple items' => exact .tuple (items.trans items' h h')

theorem ItemsCompare.trans {as bs cs : List Value} {o o' : Ordering} (first : ItemsCompare as bs o)
    (second : ItemsCompare bs cs o') (h : o.isLE) (h' : o'.isLE) :
    ItemsCompare as cs (o.then o') := by
  cases first with
  | done => exact second
  | shorter _ _ =>
      cases second with
      | longer _ _ => cases h'
      | later _ _ | here _ _ _ _ => exact .shorter _ _
  | longer _ _ => cases h
  | later head rest =>
      cases second with
      | longer _ _ => cases h'
      | later head' rest' => exact .later (head.trans head' rfl rfl) (rest.trans rest' h h')
      | here _ cs head' differs =>
          obtain rfl := lt_of_isLE h' differs
          rw [then_lt_of_isLE h]
          exact .here _ cs (head.trans head' rfl rfl) differs
  | here as _ head differs =>
      obtain rfl := lt_of_isLE h differs
      cases second with
      | longer _ _ => cases h'
      | later head' _ =>
          have hrises := head.trans head' rfl rfl
          exact .here as _ hrises differs
      | here _ cs head' _ =>
          have hrises := head.trans head' rfl h'
          exact .here as cs hrises differs

end

theorem order_swap {a b : Value} {o : Ordering} (h : a.order b = .ok o) :
    b.order a = .ok o.swap :=
  (compares_of_order h).swap.order_eq

/-- Steps to one side add up to a step to that side. -/
theorem Compares.chain {a b c : Value} {o : Ordering} (first : Compares a b o)
    (second : Compares b c o) : Compares a c o := by
  cases o with
  | lt | eq => exact first.trans second rfl rfl
  | gt => exact (second.swap.trans first.swap rfl rfl).swap

/-- The order is a linear order of identical things on what it compares: turning the values around
turns the answer around, data compares with itself, steps that do not fall add up to one, and the
answer is equality only for a value and itself. -/
theorem order_lawful (a b c : Value) :
    (∀ o, a.order b = .ok o ↔ b.order a = .ok o.swap) ∧
      (a.isData → a.order a = .ok .eq) ∧
      (∀ o o', a.order b = .ok o → b.order c = .ok o' → o ≠ .gt → o' ≠ .gt →
        ∃ o'', a.order c = .ok o'' ∧ o'' ≠ .gt ∧ (o'' = .eq → o = .eq ∧ o' = .eq)) ∧
      (a.order b = .ok .eq → a = b) := by
  refine ⟨fun o => ⟨order_swap, fun h => ?_⟩, fun h => ?_, ?_, fun h => ?_⟩
  · simpa using order_swap h
  · exact (compares_self h).order_eq
  · intro o o' h h' hrises hrises'
    have hle := Ordering.isLE_iff_ne_gt.mpr hrises
    have hle' := Ordering.isLE_iff_ne_gt.mpr hrises'
    have hcompares := (compares_of_order h).trans (compares_of_order h') hle hle'
    have hends : (o.then o').isLE := Ordering.isLE_then_iff_and.mpr ⟨hle, Or.inr hle'⟩
    exact ⟨o.then o', hcompares.order_eq, Ordering.isLE_iff_ne_gt.mp hends, Ordering.then_eq_eq.mp⟩
  · exact (compares_of_order h).identical rfl

/-- Tuples of different lengths, told apart by the zeros and by a NaN before anything that does
not compare. -/
theorem order_lawful_nested :
    let low := tuple [.number .negativeZero, .builtin .add]
    let mid := tuple [.number 0, tuple [.number 1], .text "x"]
    let high := tuple [.number 0, tuple [.number .nan, .unit]]
    low.order mid = .ok .lt ∧ mid.order high = .ok .lt ∧ mid.order low = .ok .gt ∧
      low.order high = .ok .lt ∧ high.order high = .ok .eq := by
  intro low mid high
  have hlow : low.order mid = .ok .lt := rfl
  have hhigh : mid.order high = .ok .lt := by decide +kernel
  obtain ⟨hswap, -, htrans, -⟩ := order_lawful low mid high
  obtain ⟨o, ho, hrises, hequal⟩ := htrans .lt .lt hlow hhigh (by simp) (by simp)
  have hlt : o = .lt :=
    lt_of_isLE (Ordering.isLE_iff_ne_gt.mpr hrises) fun h => by simpa using (hequal h).1
  subst hlt
  exact ⟨hlow, hhigh, (hswap .lt).mp hlow, ho, (order_lawful high low mid).2.1 rfl⟩

end Value

end FieldCalculus
