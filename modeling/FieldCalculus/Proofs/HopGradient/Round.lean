import FieldCalculus.Library
import FieldCalculus.Proofs.Eval
import FieldCalculus.Proofs.Export
import FieldCalculus.Proofs.Number

/-!
A round of the hop gradient. In its first round a device sends only its value; from then
on also the value of the round before, which is what neighbors count on from.
-/

namespace FieldCalculus.HopGradient

/-- A number of hops as a value. -/
def hopValue (hops : ℕ∞) : Value := .number (.ofHops hops)

/-- Where the value of a device stands. -/
def valuePath : Path := [.rep 0]

/-- Where a device that takes part in the exchange is found. -/
def foldPath : Path := [.rep 0, .foldHood 0]

/-- Where a device tells its neighbors the value of its last round. -/
def toldPath : Path := [.rep 0, .foldHood 0, .nbr 0]

/-- What a device sends after its first round. -/
def firstExport (value : ℕ∞) : Export := .ofPuts [(valuePath, hopValue value)] (hopValue value)

/-- What a device sends after a later round, in which it heard of `heard` hops. -/
def laterExport (value heard told : ℕ∞) : Export :=
  .ofPuts [(toldPath, hopValue told), (foldPath, hopValue heard), (valuePath, hopValue value)]
    (hopValue value)

/-- The hops from a device that counts on from neighbors at the given numbers of hops. -/
noncomputable def countOn (told : List ℕ∞) : ℕ∞ :=
  told.foldl (fun nearest hops => min nearest (hops + 1)) ⊤

theorem foldl_eq_min_countOn (told : List ℕ∞) (nearest : ℕ∞) :
    told.foldl (fun nearest hops => min nearest (hops + 1)) nearest =
      min nearest (countOn told) := by
  unfold countOn
  induction told generalizing nearest with
  | nil => exact (min_top_right nearest).symm
  | cons hops rest ih =>
      rw [List.foldl_cons, List.foldl_cons, ih, ih (min ⊤ _), min_top_left, min_assoc]

theorem countOn_cons (hops : ℕ∞) (told : List ℕ∞) :
    countOn (hops :: told) = min (hops + 1) (countOn told) := by
  rw [countOn, List.foldl_cons, foldl_eq_min_countOn, min_top_left]

theorem countOn_le {told : List ℕ∞} {hops : ℕ∞} (h : hops ∈ told) : countOn told ≤ hops + 1 := by
  induction told with
  | nil => cases h
  | cons first rest ih =>
      rw [countOn_cons]
      rcases List.mem_cons.mp h with rfl | hrest
      · exact min_le_left _ _
      · exact (min_le_right _ _).trans (ih hrest)

theorem le_countOn {told : List ℕ∞} {low : ℕ∞} (h : ∀ hops ∈ told, low ≤ hops + 1) :
    low ≤ countOn told := by
  induction told with
  | nil => exact le_top
  | cons first rest ih =>
      rw [countOn_cons]
      refine le_min (h first List.mem_cons_self) (ih ?_)
      intro hops hhops
      exact h hops (List.mem_cons_of_mem _ hhops)

/-! ## The fold over the neighbors -/

section Fold

open Eval

variable {ctx : Context}

/-- What the fold asks of each neighbor: its last value and one hop more. -/
def oneFurther : Expr := Library.plus (.nbr (.var "d")) (.number (.ofNat 1))

theorem call_add_one (hops : ℕ∞) :
    Builtin.add.call [hopValue hops, .number (.ofNat 1)] = .ok (hopValue (hops + 1)) := by
  change Except.ok (Value.number ((Number.ofHops hops).add (.ofNat 1))) = _
  rw [Number.ofHops_add_one]
  rfl

theorem call_min (a b : ℕ∞) :
    Builtin.min.call [hopValue a, hopValue b] = .ok (hopValue (min a b)) := by
  have hchosen : Builtin.min.call [hopValue a, hopValue b] =
      .ok (if ((Number.ofHops a).totalOrder (.ofHops b)).isLE then hopValue a else hopValue b) := by
    change Except.ok _ = _
    cases (Number.ofHops a).totalOrder (.ofHops b) <;> rfl
  rw [hchosen]
  congr 1
  split
  · rename_i hle
    rw [Number.isLE_totalOrder_ofHops] at hle
    rw [hopValue, hopValue, Number.ofHops_min_of_le hle]
  · rename_i hgt
    rw [Number.isLE_totalOrder_ofHops] at hgt
    have hle : b ≤ a := by
      by_contra hnot
      exact hgt (Number.wordOfHops_mono (le_of_not_ge hnot))
    rw [min_eq_right hle]

theorem eval_one (depth : Nat) (slots : Nat) :
    eval (depth + 1) (.number (.ofNat 1)) ctx slots = .ok ⟨.number (.ofNat 1), slots, []⟩ := rfl

/-- The device itself tells its last value. -/
theorem eval_oneFurther_self (depth : Nat) {hops : ℕ∞} (hfocus : ctx.focus = .self)
    (hrecording : ctx.recording = true) (hlast : ctx.lookup "d" = .ok (hopValue hops)) :
    eval (depth + 4) oneFurther ctx 0 =
      .ok ⟨hopValue (hops + 1), 1, [(ctx.path.push (.nbr 0), hopValue hops)]⟩ := by
  have hvar : eval (depth + 2) (.var "d") (ctx.nest (.nbr 0)) 0 =
      .ok ⟨hopValue hops, 0, []⟩ := eval_var_ok hlast
  have htold := eval_nbr_self_ok hfocus hvar
  rw [hrecording] at htold
  exact eval_call_ok (evalAll_cons_ok htold (evalAll_singleton_ok (eval_one _ _)))
    (call_add_one hops)

/-- A neighbor in focus has told its own. -/
theorem eval_oneFurther_neighbor (depth : Nat) {id : DeviceId} {exported : Export} {hops : ℕ∞}
    (htold : exported.get? (ctx.path.push (.nbr 0)) = some (hopValue hops)) :
    eval (depth + 4) oneFurther (ctx.focusedOn id exported) 0 =
      .ok ⟨hopValue (hops + 1), 1, []⟩ := by
  have hheard : eval (depth + 3) (.nbr (.var "d")) (ctx.focusedOn id exported) 0 =
      .ok ⟨hopValue hops, 1, []⟩ := eval_nbr_neighbor_ok rfl htold
  exact eval_call_ok (evalAll_cons_ok hheard (evalAll_singleton_ok (eval_one _ _)))
    (call_add_one hops)

/-- The fold of a device that tells `last` and hears its neighbors takes the nearest of what
they told, one hop further each. -/
theorem eval_fold (depth : Nat) {last : ℕ∞} {told : List ℕ∞}
    (hrecording : ctx.recording = true) (hlast : ctx.lookup "d" = .ok (hopValue last))
    (htold : List.Forall₂ (fun entry hops =>
      entry.2.get? ((ctx.path.push (.foldHood 0)).push (.nbr 0)) = some (hopValue hops))
      (ctx.nest (.foldHood 0)).alignedNeighbors told) :
    eval (depth + 5) (.foldPlus Library.infinity (.literal (.builtin .min)) oneFurther) ctx 0 =
      .ok ⟨hopValue (countOn told), 1,
        [((ctx.path.push (.foldHood 0)).push (.nbr 0), hopValue last),
          (ctx.path.push (.foldHood 0), hopValue (countOn told))]⟩ := by
  have hinitial : eval (depth + 4) Library.infinity ctx 0 = .ok ⟨hopValue ⊤, 0, []⟩ := rfl
  have hcombine : eval (depth + 4) (.literal (.builtin .min)) ctx 0 =
      .ok ⟨.builtin .min, 0, []⟩ := rfl
  have hstart : foldStart (eval (depth + 4)) (ctx.nest (.foldHood 0)) (.builtin .min) (hopValue ⊤)
      (hopValue (last + 1)) false 1 = .ok ⟨hopValue ⊤, 1, []⟩ := rfl
  have hself : eval (depth + 4) oneFurther (ctx.nest (.foldHood 0)).toSelf 0 =
      .ok ⟨hopValue (last + 1), 1,
        [((ctx.path.push (.foldHood 0)).push (.nbr 0), hopValue last)]⟩ :=
    eval_oneFurther_self depth rfl hrecording hlast
  have hnearer : ∀ nearest hops, ∃ opened, applyTo (eval (depth + 4)) (.builtin .min)
      [hopValue nearest, hopValue (hops + 1)] (ctx.nest (.foldHood 0)).silent 0 =
        .ok ⟨hopValue (min nearest (hops + 1)), opened, []⟩ :=
    fun nearest hops => ⟨0, applyTo_builtin_ok (call_min nearest (hops + 1))⟩
  have hheard : List.Forall₂ (fun entry hops => ∃ opened, eval (depth + 4) oneFurther
      ((ctx.nest (.foldHood 0)).toSelf.focusedOn entry.1 entry.2) 0 =
        .ok ⟨hopValue (hops + 1), opened, []⟩) (ctx.nest (.foldHood 0)).alignedNeighbors told :=
    htold.imp fun _ _ hentry => ⟨1, eval_oneFurther_neighbor depth hentry⟩
  have hfold := eval_neighborFold_ok hinitial hcombine hself hstart
    (foldNeighbors_ok hnearer hheard ⊤)
  rw [hrecording] at hfold
  exact hfold

end Fold

/-! ## Whole rounds -/

section Round

open Eval

variable {inputs : RoundInputs} {source : String} {isSource : Bool}

/-- Zero at a source, and the value of `field` elsewhere. -/
theorem eval_unlessSource (depth : Nat) {ctx : Context} {field : Expr} {hops : ℕ∞} {slots : Nat}
    {puts : List (Path × Value)} (hsource : ctx.sense source = .ok (.bool isSource))
    (hfield : eval (depth + 2) field ctx 0 = .ok ⟨hopValue hops, slots, puts⟩) :
    eval (depth + 3) (.call .mux [.sense source, .number (.ofNat 0), field]) ctx 0 =
      .ok ⟨hopValue (if isSource then 0 else hops), slots, puts⟩ := by
  have hreading : eval (depth + 2) (.sense source) ctx 0 = .ok ⟨.bool isSource, 0, []⟩ := by
    change located _ (ctx.sense source) 0 = _
    rw [hsource]
    rfl
  have hzero : eval (depth + 2) (.number (.ofNat 0)) ctx 0 = .ok ⟨.number (.ofNat 0), 0, []⟩ := rfl
  have hargs := evalAll_cons_ok hreading (evalAll_cons_ok hzero (evalAll_singleton_ok hfield))
  refine eval_call_ok hargs ?_
  cases isSource <;> rfl

/-- What a round yields and sends, given what stands behind its only `rep` slot. -/
theorem evaluate_of_repAt (v : Value) (puts : List (Path × Value))
    (hvalue : repAt (eval 1048575)
      (.call .mux [.sense source, .number (.ofNat 0), Library.infinity]) "d"
      (.call .mux [.sense source, .number (.ofNat 0),
        .foldPlus Library.infinity (.literal (.builtin .min)) oneFurther])
      ((Context.root inputs).nest (.rep 0)) 1 = .ok ⟨v, 1, puts⟩) :
    evaluate (Library.hopGradient source) inputs =
      .ok ⟨v, .ofPuts (puts ++ [(valuePath, v)]) v⟩ := by
  have hdepth : depthLimit = 1048575 + 1 := rfl
  have heval : eval (1048575 + 1) (Library.hopGradient source) (.root inputs) 0 =
      .ok ⟨v, 1, puts ++ [(valuePath, v)]⟩ := eval_rep_ok (y := ⟨v, 1, puts⟩) hvalue
  rw [evaluate, evaluateIn, hdepth, heval]

theorem sense_root (hsource : inputs.sensors.sense source = some (.bool isSource)) (slot : Slot) :
    ((Context.root inputs).nest slot).sense source = .ok (.bool isSource) := by
  have hinputs : ((Context.root inputs).nest slot).inputs = inputs := rfl
  rw [Context.sense, hinputs, hsource]

/-- The first round yields zero at a source and infinity elsewhere. -/
theorem evaluate_first (hsource : inputs.sensors.sense source = some (.bool isSource))
    (hfresh : inputs.state.get? valuePath = none) :
    evaluate (Library.hopGradient source) inputs =
      .ok ⟨hopValue (if isSource then 0 else ⊤), firstExport (if isSource then 0 else ⊤)⟩ := by
  have hfar : eval 1048574 Library.infinity ((Context.root inputs).nest (.rep 0)) 0 =
      .ok ⟨hopValue ⊤, 0, []⟩ := rfl
  have hinit := eval_unlessSource 1048572 (sense_root hsource (.rep 0)) hfar
  have hremembered : ((Context.root inputs).nest (.rep 0)).remembered = none := hfresh
  refine evaluate_of_repAt _ [] ?_
  rw [repAt, hremembered]
  exact inside_of_ok hinit 1

/-- A later round yields zero at a source, and elsewhere what the fold makes of the
neighbors that take part. -/
theorem evaluate_later {last : ℕ∞} {told : List ℕ∞}
    (hsource : inputs.sensors.sense source = some (.bool isSource))
    (hlast : inputs.state.get? valuePath = some (hopValue last))
    (htold : List.Forall₂ (fun entry hops => entry.2.get? toldPath = some (hopValue hops))
      (inputs.neighbors.entries.filter fun entry =>
        entry.1 ≠ inputs.device && entry.2.contains foldPath) told) :
    evaluate (Library.hopGradient source) inputs =
      .ok ⟨hopValue (if isSource then 0 else countOn told),
        laterExport (if isSource then 0 else countOn told) (countOn told) last⟩ := by
  have hlookup : (((Context.root inputs).nest (.rep 0)).bind "d" (hopValue last)).lookup "d" =
      .ok (hopValue last) := rfl
  have hfold := eval_fold 1048569 rfl hlookup htold
  have hsense : (((Context.root inputs).nest (.rep 0)).bind "d" (hopValue last)).sense source =
      .ok (.bool isSource) := sense_root hsource (.rep 0)
  have hupdate := eval_unlessSource 1048572 hsense hfold
  have hremembered : ((Context.root inputs).nest (.rep 0)).remembered = some (hopValue last) :=
    hlast
  refine evaluate_of_repAt _ [(toldPath, hopValue last), (foldPath, hopValue (countOn told))] ?_
  rw [repAt, hremembered]
  exact inside_of_ok hupdate 1

/-- Nothing but a truth value can tell a source from another device. -/
theorem sense_of_unlessSource (depth : Nat) {ctx : Context} {field : Expr} {slots : Nat}
    {y : Yield Value}
    (h : eval (depth + 3) (.call .mux [.sense source, .number (.ofNat 0), field]) ctx slots =
      .ok y) :
    ∃ isSource, ctx.sense source = .ok (.bool isSource) := by
  change step (eval (depth + 2)) (.apply (.literal (.builtin .mux)) _) ctx slots = _ at h
  rw [step_apply] at h
  obtain ⟨operator, _, hoperator, happlied, -⟩ := bind_eq_ok h
  cases hoperator
  obtain ⟨args, _, hargs, hchosen, -⟩ := bind_eq_ok happlied
  obtain ⟨reading, others, hreading, hothers, hall⟩ := evalAll_cons_eq_ok hargs
  obtain ⟨zero, rest, -, hrest, hzero⟩ := evalAll_cons_eq_ok hothers
  obtain ⟨far, last, -, hlast, hfar⟩ := evalAll_cons_eq_ok hrest
  cases hlast
  obtain ⟨v, hsense, rfl⟩ := located_eq_ok hreading
  rw [hall, hzero, hfar] at hchosen
  cases v with
  | bool isSource => exact ⟨isSource, hsense⟩
  | _ => cases hchosen

/-- A round succeeds only if the sensor reads a truth value. -/
theorem sense_of_evaluate {result : Evaluation}
    (h : evaluate (Library.hopGradient source) inputs = .ok result) :
    ∃ isSource, inputs.sensors.sense source = some (.bool isSource) := by
  have hdepth : depthLimit = 1048575 + 1 := rfl
  cases heval : eval (1048575 + 1) (Library.hopGradient source) (.root inputs) 0 with
  | error interrupt =>
      rw [evaluate, evaluateIn, hdepth, heval] at h
      cases interrupt <;> cases h
  | ok y =>
      change step (eval 1048575) (.rep _ "d" _) (.root inputs) 0 = _ at heval
      rw [step_rep] at heval
      obtain ⟨index, _, hindex, hrest, -⟩ := bind_eq_ok heval
      cases hindex
      obtain ⟨v, _, hvalue, -, -⟩ := bind_eq_ok hrest
      -- with a value to go on from or without, the sensor is read first
      have hinside : ∃ ctx field w, ctx.inputs = inputs ∧
          eval 1048575 (.call .mux [.sense source, .number (.ofNat 0), field]) ctx 0 = .ok w := by
        rw [repAt] at hvalue
        cases hremembered : ((Context.root inputs).nest (.rep (UInt32.ofNat 0))).remembered with
        | none =>
            rw [hremembered] at hvalue
            obtain ⟨w, hw, -⟩ := inside_eq_ok hvalue
            exact ⟨_, _, w, rfl, hw⟩
        | some last =>
            rw [hremembered] at hvalue
            obtain ⟨w, hw, -⟩ := inside_eq_ok hvalue
            exact ⟨_, _, w, rfl, hw⟩
      obtain ⟨ctx, field, w, rfl, hw⟩ := hinside
      obtain ⟨isSource, hsense⟩ := sense_of_unlessSource 1048572 hw
      refine ⟨isSource, ?_⟩
      unfold Context.sense at hsense
      split at hsense
      · rename_i heq
        cases hsense
        exact heq
      · cases hsense

end Round

end FieldCalculus.HopGradient
