import FieldCalculus.Proofs.Passing

/-!
First-order programs. Where no function is written and none is given, the only functions that can
arise are operators, which call nothing. Such a program nests its evaluations no deeper than it is
written, however many neighbors its folds go over, so that it comes to an end without any bound on
the depth. A function that applies itself shows what can happen otherwise.
-/

namespace FieldCalculus

mutual

/-- The value neither is nor holds a closure. -/
def Value.closureFree : Value → Bool
  | .unit | .bool _ | .number _ | .text _ | .builtin _ => true
  | .tuple items => Value.closureFreeAll items
  | .closure _ _ _ _ => false

def Value.closureFreeAll : List Value → Bool
  | [] => true
  | v :: rest => Value.closureFree v && Value.closureFreeAll rest

end

mutual

/-- No function is written in the program, and its literals hold no closures. -/
def Expr.isFirstOrder : Expr → Bool
  | .literal v => v.closureFree
  | .var _ | .sense _ | .neighborSense _ | .selfId => true
  | .lambda _ _ _ => false
  | .apply function args => Expr.isFirstOrder function && Expr.areFirstOrder args
  | .letIn _ value body => Expr.isFirstOrder value && Expr.isFirstOrder body
  | .branch condition thenSide elseSide =>
    Expr.isFirstOrder condition && Expr.isFirstOrder thenSide && Expr.isFirstOrder elseSide
  | .rep init _ update => Expr.isFirstOrder init && Expr.isFirstOrder update
  | .nbr body => Expr.isFirstOrder body
  | .neighborFold default accumulator generator _ =>
    Expr.isFirstOrder default && Expr.isFirstOrder accumulator && Expr.isFirstOrder generator

def Expr.areFirstOrder : List Expr → Bool
  | [] => true
  | e :: rest => Expr.isFirstOrder e && Expr.areFirstOrder rest

end

theorem Value.closureFreeAll_iff {vs : List Value} :
    Value.closureFreeAll vs ↔ ∀ v ∈ vs, v.closureFree := by
  induction vs with
  | nil => simp [Value.closureFreeAll]
  | cons head rest ih => simp [Value.closureFreeAll, ih]

theorem Expr.areFirstOrder_iff {es : List Expr} :
    Expr.areFirstOrder es ↔ ∀ e ∈ es, e.isFirstOrder := by
  induction es with
  | nil => simp [Expr.areFirstOrder]
  | cons head rest ih => simp [Expr.areFirstOrder, ih]

theorem Expr.size_le_sizeAll {e : Expr} {es : List Expr} (h : e ∈ es) :
    e.size ≤ Expr.sizeAll es := by
  induction es with
  | nil => cases h
  | cons head rest ih =>
      rw [Expr.sizeAll]
      rcases List.mem_cons.mp h with rfl | hlater
      · exact Nat.le_add_right _ _
      · exact Nat.le_trans (ih hlater) (Nat.le_add_left _ _)

mutual

theorem Value.closureFree_of_isData {v : Value} (h : v.isData) : v.closureFree := by
  cases v with
  | tuple items => exact Value.closureFreeAll_of_isDataAll h
  | builtin _ | closure _ _ _ _ => cases h
  | _ => rfl

theorem Value.closureFreeAll_of_isDataAll {vs : List Value} (h : Value.isDataAll vs) :
    Value.closureFreeAll vs := by
  cases vs with
  | nil => rfl
  | cons v rest =>
      simp only [Value.isDataAll, Bool.and_eq_true] at h
      simp [Value.closureFreeAll, Value.closureFree_of_isData h.1,
        Value.closureFreeAll_of_isDataAll h.2]

end

theorem Value.hereditary_closureFree : Value.Hereditary fun v => v.closureFree :=
  ⟨Value.closureFree_of_isData, Value.closureFreeAll_iff⟩

namespace Eval

/-! ## Evaluation -/

/-- Misused and missing values are other reasons than the bound on the depth. -/
theorem ordinary_not_exceeds : Ordinary fun interrupt => ¬interrupt.Exceeds where
  misuse {fault _} hmisuse hexceeds := by
    change fault = .depthExceeded at hexceeds
    rw [hexceeds] at hmisuse
    exact hmisuse
  unavailable hexceeds := by cases hexceeds
  absent hexceeds := hexceeds

/-- No closure is there to be called. -/
theorem callsKeep_closureFree (recur : Expr → Context → Eval Value) :
    CallsKeep (fun v => v.closureFree) (fun interrupt => ¬interrupt.Exceeds) recur where
  captured hclosure := by cases hclosure
  called hclosure := by cases hclosure

/-- As many evaluations as a first-order program has nodes may nest without one of them meeting the
bound. The induction is on the bound, which goes down by one where the program gets smaller. -/
theorem keepsUnder_eval {depth : Nat} {expr : Expr} (hfirst : expr.isFirstOrder)
    (hsize : expr.size ≤ depth) (env : Env) :
    KeepsUnder (fun v => v.closureFree) (fun interrupt => ¬interrupt.Exceeds) (eval depth) env
      expr := by
  induction depth generalizing expr env with
  | zero => exact absurd (Nat.lt_of_lt_of_le expr.size_pos hsize) (Nat.lt_irrefl _)
  | succ depth ih =>
      refine keepsUnder_step Value.hereditary_closureFree ordinary_not_exceeds
        (callsKeep_closureFree _) ?_
      cases expr with
      | literal v => exact hfirst
      | var name => exact fun _ _ hexceeds => by cases hexceeds
      | sense _ | neighborSense _ | selfId => trivial
      | lambda code params body => cases hfirst
      | apply function args =>
          rw [Expr.isFirstOrder, Bool.and_eq_true, Expr.areFirstOrder_iff] at hfirst
          rw [Expr.size] at hsize
          refine ⟨ih hfirst.1 (by omega) env, fun arg harg => ?_⟩
          have hsmaller := Expr.size_le_sizeAll harg
          exact ih (hfirst.2 arg harg) (by omega) env
      | letIn name value body =>
          rw [Expr.isFirstOrder, Bool.and_eq_true] at hfirst
          rw [Expr.size] at hsize
          exact ⟨ih hfirst.1 (by omega) env, fun v _ => ih hfirst.2 (by omega) _⟩
      | branch condition thenSide elseSide =>
          rw [Expr.isFirstOrder, Bool.and_eq_true, Bool.and_eq_true] at hfirst
          rw [Expr.size] at hsize
          exact ⟨ih hfirst.1.1 (by omega) env, ih hfirst.1.2 (by omega) env,
            ih hfirst.2 (by omega) env⟩
      | rep init name update =>
          rw [Expr.isFirstOrder, Bool.and_eq_true] at hfirst
          rw [Expr.size] at hsize
          exact ⟨ih hfirst.1 (by omega) env, fun v _ => ih hfirst.2 (by omega) _⟩
      | nbr body =>
          rw [Expr.size] at hsize
          have hbody : body.isFirstOrder := hfirst
          exact ih hbody (by omega) env
      | neighborFold default accumulator generator includeSelf =>
          rw [Expr.isFirstOrder, Bool.and_eq_true, Bool.and_eq_true] at hfirst
          rw [Expr.size] at hsize
          exact ⟨ih hfirst.1.1 (by omega) env, ih hfirst.1.2 (by omega) env,
            ih hfirst.2 (by omega) env⟩

end Eval

/-! ## Rounds -/

/-- What a round of a first-order program comes to if it may nest as deep as the program is
written. -/
theorem evaluateWithin_of_size_le {program : Expr} {inputs : RoundInputs} {depth : Nat}
    (hprogram : program.isFirstOrder) (hsize : program.size ≤ depth)
    (hinputs : inputs.All fun v => v.closureFree) :
    (∀ result, evaluateWithin depth program inputs = .ok result →
      result.All fun v => v.closureFree) ∧
    ∀ error, evaluateWithin depth program inputs = .error error →
      error.fault ≠ .depthExceeded := by
  obtain ⟨hresult, herror⟩ := (Eval.keepsUnder_eval hprogram hsize []).evaluated hinputs
  refine ⟨hresult, ?_⟩
  intro error hfails
  obtain ⟨interrupt, hordinary, rfl⟩ := herror error hfails
  cases interrupt with
  | failed error => exact hordinary
  | absent path => exact nofun

/-- First-order evaluation terminates. Given no closures, a program that writes no functions comes
to one and the same value, or to one and the same error, with every bound on the depth that is no
less than its size. It never meets such a bound, and it leaves no closures behind. -/
theorem first_order_terminates (program : Expr) (inputs : RoundInputs)
    (hprogram : program.isFirstOrder) (hinputs : inputs.All fun v => v.closureFree) :
    ∃ outcome : Except EvalError Evaluation,
      (∀ depth ≥ program.size, evaluateWithin depth program inputs = outcome) ∧
      (program.size ≤ depthLimit → evaluate program inputs = outcome) ∧
      (∀ error, outcome = .error error → error.fault ≠ .depthExceeded) ∧
      ∀ result, outcome = .ok result → result.All fun v => v.closureFree := by
  obtain ⟨hresult, herror⟩ := evaluateWithin_of_size_le hprogram (Nat.le_refl _) hinputs
  have hsame : ∀ depth ≥ program.size,
      evaluateWithin depth program inputs = evaluateWithin program.size program inputs :=
    fun depth hdepth => evaluateWithin_of_le hdepth herror
  refine ⟨_, hsame, fun hsize => ?_, herror, hresult⟩
  rw [evaluate_eq_within]
  exact hsame depthLimit hsize

/-- Tells the sum of what the neighbors have told to have counted, and takes the greatest of the
sums that are told. The counts are told next to an operator, and a device counts while it is
switched on. -/
def nestedTallies : Expr :=
  .foldPlus (.literal (.number 0)) (.literal (.builtin .max))
    (.nbr (.fold (.literal (.number 0)) (.literal (.builtin .add))
      (.call .get [.nbr (.call .tuple [.literal (.builtin .add),
        .rep (.literal (.number 1)) "n"
          (.call .mux [.sense "on", .call .add [.var "n", .literal (.number 1)], .var "n"])]),
        .literal (.number 1)])))

/-- What a device has exported that came to the same places alone, having counted to three. -/
def talliedThree : Export :=
  .ofPuts [
    ([.foldHood 0, .nbr 0, .foldHood 0, .nbr 0, .rep 0], .number 3),
    ([.foldHood 0, .nbr 0, .foldHood 0, .nbr 0], .tuple [.builtin .add, .number 3]),
    ([.foldHood 0, .nbr 0, .foldHood 0], .number 3), ([.foldHood 0, .nbr 0], .number 3),
    ([.foldHood 0], .number 0)] (.number 0)

/-- A device that has counted to three as well, and hears from one that did. -/
def besideTallied : RoundInputs where
  device := ⟨"a"⟩
  sensors := ⟨fun name => if name = "on" then some (.bool true) else none, fun _ _ => none⟩
  state := .absorb .empty talliedThree
  neighbors := Dict.empty.insert ⟨"b"⟩ talliedThree

theorem nestedTallies_terminates : nestedTallies.isFirstOrder ∧
    (besideTallied.All fun v => v.closureFree) ∧ nestedTallies.size = 24 ∧
    ∃ result, result.value.equals (.number 3) ∧ result.exported.All (fun v => v.closureFree) ∧
      (∀ depth ≥ 24, evaluateWithin depth nestedTallies besideTallied = .ok result) ∧
      evaluate nestedTallies besideTallied = .ok result := by
  have htallied : talliedThree.All fun v => v.closureFree :=
    Export.all_ofPuts (by decide) rfl
  have hinputs : besideTallied.All fun v => v.closureFree := by
    refine ⟨⟨?_, nofun⟩, DeviceState.All.absorb nofun htallied, ?_⟩
    · intro name v hv
      change (if name = "on" then some (Value.bool true) else none) = some v at hv
      split at hv
      · cases hv
        rfl
      · cases hv
    · intro id exported hfound
      change (Dict.empty.insert _ _).find? id = _ at hfound
      rw [Dict.find?_insert] at hfound
      split at hfound
      · cases hfound
        exact htallied
      · cases hfound
  have hsize : nestedTallies.size = 24 := rfl
  obtain ⟨outcome, hwithin, heval, -, hleft⟩ :=
    first_order_terminates nestedTallies besideTallied rfl hinputs
  have hvalue : (evaluateWithin 24 nestedTallies besideTallied).toOption.any
      fun result => result.value.equals (.number 3) := by decide +kernel
  rw [hwithin 24 (Nat.le_refl _)] at hvalue
  cases houtcome : outcome with
  | error error =>
      rw [houtcome] at hvalue
      cases hvalue
  | ok result =>
      rw [houtcome] at hvalue hwithin heval
      have hlimit : nestedTallies.size ≤ depthLimit := by rw [hsize]; decide
      exact ⟨rfl, hinputs, hsize, result, hvalue, (hleft result houtcome).exported, hwithin,
        heval hlimit⟩

/-! ## Networks -/

/-- A first-order program that is not larger than evaluations may nest. -/
structure Expr.Shallow (program : Expr) : Prop where
  firstOrder : program.isFirstOrder
  size : program.size ≤ depthLimit

theorem passesOn_closureFree : PassesOn Expr.Shallow fun v => v.closureFree := by
  intro program inputs result hprogram hinputs hresult
  rw [evaluate_eq_within] at hresult
  exact (evaluateWithin_of_size_le hprogram.firstOrder hprogram.size hinputs).1 result hresult

/-- No closures arise in a network of devices that run first-order programs and whose sensors read
none, so that no round of any run meets the bound on the depth. -/
theorem first_order_network (program : Expr) (pacing : Pacing) (delivery : Delivery)
    (topology : Topology) (neighborhood : Neighborhood) (acts : List Network.Act)
    (hacts : ∀ act ∈ acts, act.Admits Expr.Shallow fun v => v.closureFree) :
    ∀ r ∈ (Network.empty program pacing delivery topology neighborhood).history acts,
      ∀ failure, r.outcome = .error failure → failure.error.fault ≠ .depthExceeded := by
  obtain ⟨-, hrounds⟩ := Network.All.run passesOn_closureFree
    (.empty program pacing delivery topology neighborhood) hacts
  intro r hr failure hfailure
  obtain ⟨hprogram, hinputs⟩ := (hrounds r hr).inputs
  have hfails := (hrounds r hr).evaluated_of_error hfailure
  rw [evaluate_eq_within] at hfails
  exact (evaluateWithin_of_size_le hprogram.firstOrder hprogram.size hinputs).2 _ hfails

end FieldCalculus
