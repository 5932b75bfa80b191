import FieldCalculus.Proofs.Comparison
import FieldCalculus.Proofs.Eval
import Mathlib.Data.List.Nodup
import Mathlib.Data.List.Perm.Basic
import Mathlib.Logic.Equiv.Defs

/-!
Folds for the least and for the greatest value. The result is the extreme of all that was told,
as far as this compares, and so does not depend on who told what: neighbors are taken in the order
of their ids, but any other order would have led to the same value.
-/

namespace FieldCalculus

namespace Value

/-! ## The extreme of a list -/

/-- The order answers for the two values. -/
def Comparable (a b : Value) : Prop := ∃ o, a.order b = .ok o

theorem comparable_numbers (m n : Number) : Comparable (.number m) (.number n) := ⟨_, rfl⟩

theorem Comparable.symm {a b : Value} (h : a.Comparable b) : b.Comparable a := by
  obtain ⟨o, horder⟩ := h
  exact ⟨o.swap, order_swap horder⟩

/-- A value of the list from which all others lie on one side. -/
structure Extreme (side : Ordering) (vs : List Value) (v : Value) : Prop where
  mem : v ∈ vs
  others : ∀ w ∈ vs, w = v ∨ v.order w = .ok side

namespace Extreme

variable {side : Ordering} {vs ws : List Value} {v w : Value}

/-- There is one extreme at most. -/
theorem unique (hside : side ≠ .eq) (hv : Extreme side vs v) (hw : Extreme side vs w) : v = w := by
  rcases hw.others v hv.mem with heq | hbeyond
  · exact heq
  rcases hv.others w hw.mem with heq | hbefore
  · exact heq.symm
  · have hback := order_swap hbeyond
    rw [hbefore, Except.ok.injEq] at hback
    cases side with
    | eq => exact absurd rfl hside
    | lt | gt => cases hback

theorem of_mem_iff (h : Extreme side vs v) (hmem : ∀ x, x ∈ ws ↔ x ∈ vs) : Extreme side ws v :=
  ⟨(hmem v).mpr h.mem, fun x hx => h.others x ((hmem x).mp hx)⟩

/-- The extreme of a list stands for the list. -/
theorem append (hv : Extreme side vs v) (hw : Extreme side (v :: ws) w) :
    Extreme side (vs ++ ws) w := by
  constructor
  · rcases List.mem_cons.mp hw.mem with rfl | hmem
    · exact List.mem_append_left _ hv.mem
    · exact List.mem_append_right _ hmem
  · intro x hx
    rcases List.mem_append.mp hx with hx | hx
    · rcases hv.others x hx with rfl | hbeyond
      · exact hw.others x List.mem_cons_self
      rcases hw.others v List.mem_cons_self with rfl | hfirst
      · exact Or.inr hbeyond
      · have hchain := (compares_of_order hfirst).chain (compares_of_order hbeyond)
        exact Or.inr hchain.order_eq
    · exact hw.others x (List.mem_cons_of_mem _ hx)

end Extreme

end Value

namespace Builtin

open Value

variable {side : Ordering}

/-- The side on which an operator that picks one of two values wants the other one. -/
def side? : Builtin → Option Ordering
  | min => some .lt
  | max => some .gt
  | _ => none

theorem side?_ne_eq {b : Builtin} (h : b.side? = some side) : side ≠ .eq := by
  cases b <;> cases h <;> simp

theorem call_of_side? {b : Builtin} (h : b.side? = some side) (v w : Value) :
    b.call [v, w] = pick side v w := by
  cases b <;> cases h <;> rfl

theorem pick_extreme (hside : side ≠ .eq) {v w : Value} (h : v.Comparable w) :
    ∃ x, pick side v w = .ok x ∧ Extreme side [v, w] x := by
  obtain ⟨o, horder⟩ := h
  have hback := order_swap horder
  have hpick : pick side v w = .ok (if o = .eq || o = side then v else w) := by
    simp [pick, horder, bind, Except.bind, pure, Except.pure]
  by_cases hequal : o = .eq
  · subst hequal
    obtain rfl := (compares_of_order horder).identical rfl
    exact ⟨v, by simpa using hpick, by simp, by simp⟩
  by_cases hwanted : o = side
  · subst hwanted
    exact ⟨v, by simpa using hpick, by simp, by simp [horder]⟩
  · have hother : o.swap = side := by cases o <;> cases side <;> simp_all
    exact ⟨w, by simpa [hequal, hwanted] using hpick, by simp, by simp [hback, hother]⟩

/-- Picking through a list ends at its extreme. -/
theorem foldlM_pick (hside : side ≠ .eq) {v : Value} {rest : List Value}
    (h : (v :: rest).Pairwise Comparable) :
    ∃ x, rest.foldlM (pick side) v = .ok x ∧ Extreme side (v :: rest) x := by
  induction rest generalizing v with
  | nil => exact ⟨v, rfl, by simp, by simp⟩
  | cons w rest ih =>
      obtain ⟨hv, hw, hrest⟩ : (∀ x ∈ w :: rest, v.Comparable x) ∧
          (∀ x ∈ rest, w.Comparable x) ∧ rest.Pairwise Comparable := by
        rw [List.pairwise_cons, List.pairwise_cons] at h
        exact h
      obtain ⟨picked, hpick, hextreme⟩ := pick_extreme hside (hv w List.mem_cons_self)
      have hpicked : (picked :: rest).Pairwise Comparable := by
        refine List.pairwise_cons.mpr ⟨fun x hx => ?_, hrest⟩
        have hmem := hextreme.mem
        simp only [List.mem_cons, List.not_mem_nil, or_false] at hmem
        rcases hmem with rfl | rfl
        · exact hv x (List.mem_cons_of_mem _ hx)
        · exact hw x hx
      obtain ⟨x, hfold, hx⟩ := ih hpicked
      refine ⟨x, ?_, hextreme.append hx⟩
      rw [List.foldlM_cons, hpick]
      exact hfold

end Builtin

/-- What is found under the members of two lists without repetition is the same but for its order
if a permutation carries one to the other, and nothing is found outside of the lists. -/
theorem filterMap_perm_of_equiv {ι α : Type} {f g : ι → Option α} {is js : List ι} (his : is.Nodup)
    (hjs : js.Nodup) (hf : ∀ i, (f i).isSome → i ∈ is) (hg : ∀ j, (g j).isSome → j ∈ js)
    (σ : Equiv.Perm ι) (h : ∀ i, g (σ i) = f i) : (is.filterMap f).Perm (js.filterMap g) := by
  have hfound :
      ((is.filter fun i => (f i).isSome).map σ).Perm (js.filter fun j => (g j).isSome) := by
    apply (List.perm_ext_iff_of_nodup ((his.filter _).map σ.injective) (hjs.filter _)).mpr
    intro j
    obtain ⟨i, rfl⟩ := σ.surjective j
    rw [List.mem_map_of_injective σ.injective, List.mem_filter, List.mem_filter, h]
    constructor
    · rintro ⟨-, hsome⟩
      exact ⟨hg _ (by rwa [h]), hsome⟩
    · rintro ⟨-, hsome⟩
      exact ⟨hf _ hsome, hsome⟩
  have hcarried : g ∘ σ = f := funext h
  have hvalues := hfound.filterMap g
  rw [List.filterMap_map, hcarried, List.filterMap_filter, List.filterMap_filter] at hvalues
  have hkept (k : ι → Option α) : (fun i => if (k i).isSome then k i else none) = k := by
    funext i
    cases k i <;> rfl
  rwa [hkept, hkept] at hvalues

namespace Eval

/-! ## Folds by an operator -/

section Fold

variable {depth : Nat} {default generator : Expr} {ctx : Context} {slots : Nat}

/-- What the generator of a fold makes of a neighbor; nothing if the neighbor lacks a value that
the generator reads. -/
def told? (depth : Nat) (generator : Expr) (position : Context) (entry : DeviceId × Export) :
    Option Value :=
  match eval depth generator (position.toSelf.focusedOn entry.1 entry.2) 0 with
  | .ok y => some y.value
  | .error _ => none

/-- The generator does not fail at a neighbor. -/
def Unfailing (depth : Nat) (generator : Expr) (position : Context)
    (entry : DeviceId × Export) : Prop :=
  ∀ error, eval depth generator (position.toSelf.focusedOn entry.1 entry.2) 0 ≠
    .error (.failed error)

theorem eval_nbr_neighbor_absent {body : Expr} {id : DeviceId} {exported : Export}
    (hfocus : ctx.focus = .neighbor id exported)
    (hnone : exported.get? (ctx.path.push (.nbr (UInt32.ofNat slots))) = none) :
    eval (depth + 1) (.nbr body) ctx slots =
      .error (.absent (ctx.path.push (.nbr (UInt32.ofNat slots)))) := by
  change step (eval depth) (.nbr body) ctx slots = _
  rw [step_nbr, bind_run (nextSlot_run slots), hfocus, nbrAt, Context.nest, hnone]
  rfl

/-- Reading a neighbor's value either finds it or finds it absent. -/
theorem unfailing_nbr (body : Expr) (entry : DeviceId × Export) :
    Unfailing (depth + 1) (.nbr body) ctx entry := by
  intro error h
  have hfocus : (ctx.toSelf.focusedOn entry.1 entry.2).focus = .neighbor entry.1 entry.2 := rfl
  cases hfound : entry.2.get?
      ((ctx.toSelf.focusedOn entry.1 entry.2).path.push (.nbr (UInt32.ofNat 0))) with
  | none =>
      rw [eval_nbr_neighbor_absent hfocus hfound] at h
      cases h
  | some v =>
      rw [eval_nbr_neighbor_ok hfocus hfound] at h
      cases h

/-- Asking a neighbor yields what it tells. -/
theorem present?_told {entry : DeviceId × Export} (h : Unfailing depth generator ctx entry)
    (slots : Nat) : ∃ puts,
      present? (inside (eval depth generator (ctx.toSelf.focusedOn entry.1 entry.2))) slots =
        .ok ⟨told? depth generator ctx entry, slots, puts⟩ := by
  unfold told?
  cases hasked : eval depth generator (ctx.toSelf.focusedOn entry.1 entry.2) 0 with
  | ok y => exact ⟨y.puts, present?_of_ok (inside_of_ok hasked slots)⟩
  | error interrupt =>
      cases interrupt with
      | failed error => exact absurd hasked (h error)
      | absent path => exact ⟨[], by simp [present?, inside, hasked]⟩

/-- A fold by an operator takes in what the neighbors tell, one after the other. -/
theorem foldNeighbors_builtin {b : Builtin} {neighbors : List (DeviceId × Export)}
    (hunfailing : ∀ entry ∈ neighbors, Unfailing depth generator ctx entry) {acc result : Value}
    (h : (neighbors.filterMap (told? depth generator ctx)).foldlM
      (fun v w => b.call [v, w]) acc = .ok result) (slots : Nat) :
    ∃ puts, foldNeighbors (eval depth) generator (.builtin b) ctx neighbors acc slots =
      .ok ⟨result, slots, puts⟩ := by
  induction neighbors generalizing acc with
  | nil =>
      cases h
      exact ⟨[], rfl⟩
  | cons entry rest ih =>
      obtain ⟨id, exported⟩ := entry
      have hrest : ∀ entry ∈ rest, Unfailing depth generator ctx entry :=
        fun entry hentry => hunfailing entry (List.mem_cons_of_mem _ hentry)
      obtain ⟨puts, hasked⟩ := present?_told (hunfailing _ List.mem_cons_self) slots
      rw [foldNeighbors_cons, bind_run hasked]
      cases htold : told? depth generator ctx (id, exported) with
      | none =>
          rw [List.filterMap_cons_none htold] at h
          obtain ⟨more, hmore⟩ := ih hrest h
          exact ⟨puts ++ more, by simp only [hmore, Except.map]⟩
      | some value =>
          rw [List.filterMap_cons_some htold, List.foldlM_cons] at h
          obtain ⟨next, hnext, h⟩ := Builtin.bind_eq_ok h
          obtain ⟨more, hmore⟩ := ih hrest h
          have htaken := inside_of_ok
            (applyTo_builtin_ok hnext : applyTo (eval depth) _ _ ctx.silent 0 = _) slots
          simp only
          rw [bind_run htaken, hmore]
          exact ⟨puts ++ more, rfl⟩

theorem foldStart_builtin {b : Builtin} {includeSelf : Bool} {initial own start : Value}
    (h : (if includeSelf then [own] else []).foldlM (fun v w => b.call [v, w]) initial = .ok start)
    (slots : Nat) : foldStart (eval depth) ctx (.builtin b) initial own includeSelf slots =
      .ok ⟨start, slots, []⟩ := by
  cases includeSelf with
  | false =>
      cases h
      rfl
  | true =>
      have hcall : b.call [initial, own] = .ok start := by simpa using h
      exact inside_of_ok (applyTo_builtin_ok hcall) slots

/-- The position of a fold that opens its slot after so many others. -/
def foldPosition (ctx : Context) (slots : Nat) : Context :=
  ctx.nest (.foldHood (UInt32.ofNat slots))

/-- What is evaluated for a fold before anything is combined: the default, the device's own
contribution, and what the generator makes of each aligned neighbor. None of it fails. -/
structure Gathered (depth : Nat) (default generator : Expr) (ctx : Context) (slots : Nat) where
  initial : Yield Value
  own : Yield Value
  initial_eq : eval depth default ctx slots = .ok initial
  own_eq : eval depth generator (foldPosition ctx initial.slots).toSelf 0 = .ok own
  unfailing : ∀ entry ∈ (foldPosition ctx initial.slots).alignedNeighbors,
    Unfailing depth generator (foldPosition ctx initial.slots) entry

namespace Gathered

variable {includeSelf : Bool}

/-- Where the fold stands. -/
abbrev position (g : Gathered depth default generator ctx slots) : Context :=
  foldPosition ctx g.initial.slots

/-- What the neighbors tell that are aligned and not skipped, in order of their ids. -/
def contributions (g : Gathered depth default generator ctx slots) : List Value :=
  g.position.alignedNeighbors.filterMap (told? depth generator g.position)

/-- What the fold takes in, in this order. -/
def taken (g : Gathered depth default generator ctx slots) (includeSelf : Bool) : List Value :=
  (if includeSelf then [g.own.value] else []) ++ g.contributions

/-- All that goes into the fold. -/
def values (g : Gathered depth default generator ctx slots) (includeSelf : Bool) : List Value :=
  g.initial.value :: g.taken includeSelf

/-- Combining by an operator goes through the values from left to right. -/
theorem fold_ok (g : Gathered depth default generator ctx slots) {b : Builtin} {result : Value}
    (h : (g.taken includeSelf).foldlM (fun v w => b.call [v, w]) g.initial.value = .ok result)
    (slots : Nat) : ∃ puts, fold (eval depth) g.initial.value (.builtin b) generator includeSelf
      g.position slots = .ok ⟨result, slots, puts⟩ := by
  rw [taken, List.foldlM_append] at h
  obtain ⟨start, hstart, htold⟩ := Builtin.bind_eq_ok h
  obtain ⟨puts, hneighbors⟩ := foldNeighbors_builtin g.unfailing htold slots
  rw [fold_eq, bind_run (inside_of_ok g.own_eq slots), bind_run (foldStart_builtin hstart slots),
    bind_run hneighbors, bind_run (record_run _ _ _), pure_run]
  exact ⟨_, rfl⟩

/-- A fold by an operator comes to what the operator makes of its values. -/
theorem eval_ok (g : Gathered depth default generator ctx slots) {b : Builtin} {result : Value}
    (h : (g.taken includeSelf).foldlM (fun v w => b.call [v, w]) g.initial.value = .ok result) :
    ∃ y, eval (depth + 1) (.neighborFold default (.literal (.builtin b)) generator includeSelf)
      ctx slots = .ok y ∧ y.value = result := by
  have hcombine : eval depth (.literal (.builtin b)) ctx g.initial.slots =
      .ok ⟨.builtin b, g.initial.slots, []⟩ := by
    cases depth with
    | zero => cases g.initial_eq
    | succ depth => rfl
  obtain ⟨puts, hfold⟩ := g.fold_ok h (g.initial.slots + 1)
  rw [position, foldPosition] at hfold
  change ∃ y, step (eval depth) (.neighborFold default (.literal (.builtin b)) generator
    includeSelf) ctx slots = .ok y ∧ y.value = result
  rw [step_neighborFold, bind_run g.initial_eq, bind_run hcombine, bind_run (nextSlot_run _), hfold]
  exact ⟨_, rfl, rfl⟩

/-- The contribution of a device to the fold, if it is an aligned neighbor and is not skipped. -/
def contribution? (g : Gathered depth default generator ctx slots) (id : DeviceId) : Option Value :=
  (Entries.find? id g.position.alignedNeighbors).bind fun exported =>
    told? depth generator g.position (id, exported)

/-- The aligned neighbors in order. -/
def ids (g : Gathered depth default generator ctx slots) : List DeviceId :=
  g.position.alignedNeighbors.map Prod.fst

theorem ordered (g : Gathered depth default generator ctx slots) :
    Entries.Ordered g.position.alignedNeighbors :=
  g.position.inputs.neighbors.ordered.filter _

theorem mem_ids {g : Gathered depth default generator ctx slots} {id : DeviceId}
    (h : (g.contribution? id).isSome) : id ∈ g.ids := by
  obtain ⟨v, hv⟩ := Option.isSome_iff_exists.mp h
  obtain ⟨exported, hfound, -⟩ := Option.bind_eq_some_iff.mp hv
  exact List.mem_map_of_mem ((Entries.find?_eq_some_iff g.ordered).mp hfound)

theorem contributions_eq (g : Gathered depth default generator ctx slots) :
    g.contributions = g.ids.filterMap g.contribution? := by
  rw [contributions, ids, List.filterMap_map]
  apply List.filterMap_congr
  intro entry hentry
  have hfound := (Entries.find?_eq_some_iff g.ordered).mpr hentry
  simp [contribution?, hfound]

/-- Contributions that a permutation of the devices carries along are the same but for their
order. -/
theorem contributions_perm (g : Gathered depth default generator ctx slots) {ctx' : Context}
    {slots' : Nat} (g' : Gathered depth default generator ctx' slots') (σ : Equiv.Perm DeviceId)
    (h : ∀ id, g'.contribution? (σ id) = g.contribution? id) :
    g.contributions.Perm g'.contributions := by
  rw [contributions_eq, contributions_eq]
  exact filterMap_perm_of_equiv g.ordered.nodup_keys g'.ordered.nodup_keys
    (fun _ => mem_ids) (fun _ => mem_ids) σ h

/-- So are all values of the folds if they start alike. -/
theorem values_perm (g : Gathered depth default generator ctx slots) {ctx' : Context}
    {slots' : Nat} (g' : Gathered depth default generator ctx' slots') (σ : Equiv.Perm DeviceId)
    (hinitial : g'.initial.value = g.initial.value)
    (hown : includeSelf → g'.own.value = g.own.value)
    (h : ∀ id, g'.contribution? (σ id) = g.contribution? id) :
    (g.values includeSelf).Perm (g'.values includeSelf) := by
  have hself : (if includeSelf then [g'.own.value] else []) =
      if includeSelf then [g.own.value] else [] := by
    cases includeSelf with
    | false => rfl
    | true => simp [hown rfl]
  rw [values, values, taken, taken, hinitial, hself]
  exact ((g.contributions_perm g' σ h).append_left _).cons _

/-- A fold that picks comes to the extreme of its values. -/
theorem eval_extreme (g : Gathered depth default generator ctx slots) {b : Builtin}
    {side : Ordering} (hside : b.side? = some side)
    (h : (g.values includeSelf).Pairwise Value.Comparable) :
    ∃ y, eval (depth + 1) (.neighborFold default (.literal (.builtin b)) generator includeSelf)
      ctx slots = .ok y ∧ Value.Extreme side (g.values includeSelf) y.value := by
  obtain ⟨v, hfold, hv⟩ := Builtin.foldlM_pick (Builtin.side?_ne_eq hside) h
  have hpick : Builtin.pick side = fun v w => b.call [v, w] := by
    funext v w
    exact (Builtin.call_of_side? hside v w).symm
  rw [hpick] at hfold
  obtain ⟨y, hy, rfl⟩ := g.eval_ok hfold
  exact ⟨y, hy, hv⟩

end Gathered

/-- A fold for the least or the greatest of values that compare with each other comes to it; and it
comes to the same wherever the neighbors contribute the same under permuted ids. -/
theorem fold_extreme {b : Builtin} {side : Ordering} (hside : b.side? = some side)
    {includeSelf : Bool} (g : Gathered depth default generator ctx slots)
    (hcomparable : (g.values includeSelf).Pairwise Value.Comparable) :
    ∃ y, eval (depth + 1) (.neighborFold default (.literal (.builtin b)) generator includeSelf)
        ctx slots = .ok y ∧
      y.value ∈ g.values includeSelf ∧
      (∀ v ∈ g.values includeSelf, v = y.value ∨ y.value.order v = .ok side) ∧
      ∀ {ctx' : Context} {slots' : Nat} (g' : Gathered depth default generator ctx' slots')
        (σ : Equiv.Perm DeviceId), g'.initial.value = g.initial.value →
        (includeSelf → g'.own.value = g.own.value) →
        (∀ id, g'.contribution? (σ id) = g.contribution? id) →
          ∃ y', eval (depth + 1)
              (.neighborFold default (.literal (.builtin b)) generator includeSelf) ctx' slots' =
                .ok y' ∧ y'.value = y.value := by
  obtain ⟨y, hy, hextreme⟩ := g.eval_extreme hside hcomparable
  refine ⟨y, hy, hextreme.mem, hextreme.others, ?_⟩
  intro ctx' slots' g' σ hinitial hown hcarried
  have hperm := g.values_perm g' σ hinitial hown hcarried
  have hcomparable' := (hperm.pairwise_iff Value.Comparable.symm).mp hcomparable
  obtain ⟨y', hy', hextreme'⟩ := g'.eval_extreme hside hcomparable'
  have hsame := hextreme'.of_mem_iff fun _ => hperm.mem_iff
  exact ⟨y', hy', hsame.unique (Builtin.side?_ne_eq hside) hextreme⟩

/-- The export of a device that stands in a fold and tells a number there. -/
def telling (n : Number) : Export :=
  let fold : Path := Path.root.push (.foldHood 0)
  .ofPuts [(fold.push (.nbr 0), .number n), (fold, .unit)] .unit

/-- A device whose neighbors `b` and `c` tell numbers, while `d` stands elsewhere and `e` stands in
the fold and tells nothing. -/
def surrounded (first second : Number) : Context :=
  .root ⟨⟨"a"⟩, SensorTable.empty.sensors, .empty, .ofList [(⟨"b"⟩, telling first),
    (⟨"c"⟩, telling second), (⟨"d"⟩, .ofPuts [] .unit),
    (⟨"e"⟩, .ofPuts [(Path.root.push (.foldHood 0), .unit)] .unit)]⟩

namespace Gathered

/-- What is gathered there for a fold over what neighbors tell. -/
def surrounded (first second : Number) :
    Gathered 2 (.literal (.number .infinity)) (.nbr (.literal (.number 5)))
      (Eval.surrounded first second) 0 where
  initial := ⟨.number .infinity, 0, []⟩
  own := ⟨.number 5, 1, [((Path.root.push (.foldHood 0)).push (.nbr 0), .number 5)]⟩
  initial_eq := rfl
  own_eq := rfl
  unfailing := fun entry _ => unfailing_nbr _ entry

theorem contribution?_surrounded (first second : Number) (id : DeviceId) :
    (surrounded first second).contribution? id =
      if id = ⟨"b"⟩ then some (.number first) else if id = ⟨"c"⟩ then some (.number second)
        else none := by
  have haligned : (surrounded first second).position.alignedNeighbors = [(⟨"b"⟩, telling first),
      (⟨"c"⟩, telling second), (⟨"e"⟩, .ofPuts [(Path.root.push (.foldHood 0), .unit)] .unit)] := rfl
  simp only [contribution?, haligned, Entries.find?, Std.LawfulEqCmp.compare_eq_iff_eq]
  split_ifs
  · rfl
  · rfl
  · rfl
  · rfl

end Gathered

/-- The least of what is told does not depend on which neighbor tells it. -/
theorem fold_extreme_swapped :
    let fold := Expr.neighborFold (.literal (.number .infinity)) (.literal (.builtin .min))
      (.nbr (.literal (.number 5))) true
    ∃ y y', eval 3 fold (surrounded 3 2) 0 = .ok y ∧ eval 3 fold (surrounded 2 3) 0 = .ok y' ∧
      y.value = .number 2 ∧ y'.value = .number 2 := by
  intro fold
  have hvalues : (Gathered.surrounded 3 2).values true =
      [.number .infinity, .number 5, .number 3, .number 2] := rfl
  have hcomparable : ((Gathered.surrounded 3 2).values true).Pairwise Value.Comparable := by
    simp [hvalues, Value.comparable_numbers]
  obtain ⟨y, hy, hmem, hothers, hswapped⟩ :=
    fold_extreme (b := .min) rfl (Gathered.surrounded 3 2) hcomparable
  have hcarried : ∀ id, (Gathered.surrounded 2 3).contribution? (Equiv.swap ⟨"b"⟩ ⟨"c"⟩ id) =
      (Gathered.surrounded 3 2).contribution? id := by
    intro id
    simp only [Gathered.contribution?_surrounded, Equiv.swap_apply_def]
    split_ifs <;> simp_all
  obtain ⟨y', hy', hsame⟩ := hswapped (Gathered.surrounded 2 3) _ rfl (fun _ => rfl) hcarried
  have hleast : y.value = .number 2 := by
    rw [hvalues] at hmem hothers
    rcases hothers (.number 2) (by simp) with heq | hafter
    · exact heq.symm
    simp only [List.mem_cons, List.not_mem_nil, or_false] at hmem
    rcases hmem with heq | heq | heq | heq
    · rw [heq] at hafter
      exact absurd hafter (by decide +kernel)
    · rw [heq] at hafter
      exact absurd hafter (by decide +kernel)
    · rw [heq] at hafter
      exact absurd hafter (by decide +kernel)
    · exact heq
  exact ⟨y, y', hy, hy', hleast, hsame.trans hleast⟩

end Fold

end Eval

end FieldCalculus
