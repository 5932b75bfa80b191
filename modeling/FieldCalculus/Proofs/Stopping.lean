import FieldCalculus.Proofs.Eval
import FieldCalculus.Proofs.Faults
import FieldCalculus.Proofs.Locality

/-!
Why an evaluation stops, and where. A reason that suits the positions at which faults arise and
values are missed, and that is handed on from the parts of a program to the whole, is one for which
all evaluations stop, if they do. So an error names a place at or below the one that is evaluated.
-/

namespace FieldCalculus

/-- Where an evaluation stopped. -/
def Interrupt.path : Interrupt → Path
  | failed error => error.path
  | absent path => path

namespace Eval

variable {α β : Type}

/-- The computation stops for such a reason, if it does. -/
def Stops (x : Eval α) (reason : Interrupt → Prop) : Prop :=
  ∀ slots interrupt, x slots = .error interrupt → reason interrupt

namespace Stops

variable {reason : Interrupt → Prop} {ctx : Context}

theorem pure (a : α) : (Pure.pure a : Eval α).Stops reason := by
  intro slots interrupt h
  cases h

theorem bind {x : Eval α} {f : α → Eval β} (hx : x.Stops reason) (hf : ∀ a, (f a).Stops reason) :
    (x >>= f).Stops reason := by
  intro slots interrupt h
  rcases bind_eq_error h with hfirst | ⟨y, -, hsecond⟩
  · exact hx slots interrupt hfirst
  · exact hf y.value y.slots interrupt hsecond

theorem mono {x : Eval α} {other : Interrupt → Prop} (hx : x.Stops other)
    (h : ∀ interrupt, other interrupt → reason interrupt) : x.Stops reason :=
  fun slots interrupt hstops => h interrupt (hx slots interrupt hstops)

theorem inside {x : Eval α} (hx : x.Stops reason) : (inside x).Stops reason :=
  fun _ interrupt h => hx 0 interrupt (inside_eq_error h)

/-- What is noticed as absent does not stop anything. -/
theorem present? {x : Eval α} (hx : ∀ slots error, x slots = .error (.failed error) →
    reason (.failed error)) : (present? x).Stops reason := by
  intro slots interrupt h
  have hstops := present?_eq_error h
  cases interrupt with
  | failed error => exact hx slots error hstops
  | absent path =>
      rw [Eval.present?, hstops] at h
      cases h

theorem nextSlot : nextSlot.Stops reason := by
  intro slots interrupt h
  cases h

theorem record_return (value : Value) :
    (do record ctx value; return value : Eval Value).Stops reason := by
  intro slots interrupt h
  cases h

end Stops

/-! ## Reasons at each position -/

/-- Reasons, one for each position, that hold of the faults that arise there and of the values that
are missed there, and are handed on from the parts of a program to the whole. -/
structure Reasons (reason : Context → Interrupt → Prop) : Prop where
  failed : ∀ {ctx : Context} {fault : Fault}, fault ≠ .unalignedRead →
    reason ctx (.failed ⟨fault, ctx.path⟩)
  missed : ∀ {ctx : Context} {id : DeviceId} {exported : Export} {index : UInt32},
    ctx.focus = .neighbor id exported → exported.get? (ctx.path.push (.nbr index)) = none →
      reason ctx (.absent (ctx.path.push (.nbr index)))
  within : ∀ {ctx inner : Context} {interrupt : Interrupt}, reason inner interrupt →
    ctx.path <+: inner.path → inner.focus = ctx.focus → reason ctx interrupt
  toSelf : ∀ {ctx : Context} {interrupt : Interrupt}, reason ctx.toSelf interrupt →
    reason ctx interrupt
  /-- That a neighbor in focus lacks a value is noticed, but other faults are not. -/
  focusedOn : ∀ {ctx : Context} {id : DeviceId} {exported : Export} {error : EvalError},
    reason (ctx.toSelf.focusedOn id exported) (.failed error) → reason ctx (.failed error)

namespace Reasons

variable {reason : Context → Interrupt → Prop} {ctx : Context} (h : Reasons reason)

include h

theorem nest {slot : Slot} {interrupt : Interrupt} (hinner : reason (ctx.nest slot) interrupt) :
    reason ctx interrupt :=
  h.within hinner (List.prefix_append _ _) rfl

theorem fail {fault : Fault} (hfault : fault ≠ .unalignedRead) :
    (fail ctx fault : Eval α).Stops (reason ctx) := by
  rintro slots _ ⟨⟩
  exact h.failed hfault

theorem located {result : Except Fault α} (hresult : ∀ fault, result = .error fault →
    fault ≠ .unalignedRead) : (located ctx result).Stops (reason ctx) := by
  cases result with
  | ok a => exact .pure a
  | error fault => exact h.fail (hresult fault rfl)

theorem misuse {result : Except Fault α} (hresult : Builtin.FailsByMisuse result) :
    (Eval.located ctx result).Stops (reason ctx) := by
  refine h.located ?_
  rintro fault hfault rfl
  exact hresult _ hfault

end Reasons

section Node

variable {recur : Expr → Context → Eval Value} {reason : Context → Interrupt → Prop}
  (h : Reasons reason) (hrecur : ∀ expr ctx, (recur expr ctx).Stops (reason ctx))

include hrecur in
theorem stops_evalAll (ctx : Context) (exprs : List Expr) :
    (evalAll recur ctx exprs).Stops (reason ctx) := by
  induction exprs with
  | nil => exact .pure _
  | cons expr rest ih => exact (hrecur expr ctx).bind fun _ => ih.bind fun _ => .pure _

include h hrecur

theorem stops_applyTo (function : Value) (args : List Value) (ctx : Context) :
    (applyTo recur function args ctx).Stops (reason ctx) := by
  cases function with
  | builtin op => exact h.misuse (Builtin.failsByMisuse_call op args)
  | closure code params body env =>
      rw [applyTo_closure]
      split
      · exact h.fail nofun
      · refine Stops.nextSlot.bind fun index => Stops.inside ?_
        exact (hrecur body _).mono fun _ hinner => h.within hinner (List.prefix_append _ _) rfl
  | _ => exact h.fail nofun

theorem stops_applyTo_silent (function : Value) (args : List Value) (ctx : Context) :
    (inside (applyTo recur function args ctx.silent)).Stops (reason ctx) := by
  refine Stops.inside ?_
  exact (stops_applyTo h hrecur function args ctx.silent).mono fun _ hsilent =>
    h.within hsilent List.prefix_rfl rfl

/-- The neighbors of a fold are in focus one after the other, and none of them outside of the
generator. -/
theorem stops_foldNeighbors (generator : Expr) (combine : Value) (ctx : Context)
    (neighbors : List (DeviceId × Export)) (acc : Value) :
    (foldNeighbors recur generator combine ctx neighbors acc).Stops (reason ctx) := by
  induction neighbors generalizing acc with
  | nil => exact .pure acc
  | cons neighbor rest ih =>
      obtain ⟨id, exported⟩ := neighbor
      rw [foldNeighbors_cons]
      refine Stops.bind (.present? ?_) fun contribution => ?_
      · -- with a neighbor in focus the generator may miss a value, which skips the neighbor
        intro slots error hfailed
        exact h.focusedOn (hrecur generator _ 0 _ (inside_eq_error hfailed))
      · cases contribution with
        | none => exact ih acc
        | some value => exact (stops_applyTo_silent h hrecur combine _ ctx).bind fun next => ih next

theorem stops_fold (initial combine : Value) (generator : Expr) (includeSelf : Bool)
    (ctx : Context) :
    (fold recur initial combine generator includeSelf ctx).Stops (reason ctx) := by
  rw [fold_eq]
  have hown := (hrecur generator ctx.toSelf).mono fun _ => h.toSelf
  refine hown.inside.bind fun own => ?_
  have hstart : (foldStart recur ctx combine initial own includeSelf).Stops (reason ctx) := by
    rw [foldStart]
    split
    · exact stops_applyTo_silent h hrecur combine _ ctx
    · exact .pure initial
  refine hstart.bind fun start => ?_
  exact (stops_foldNeighbors h hrecur generator combine ctx _ start).bind fun _ =>
    .record_return _

theorem stops_nbrAt (body : Expr) (ctx : Context) (index : UInt32) :
    (nbrAt recur body ctx.focus (ctx.nest (.nbr index))).Stops (reason ctx) := by
  cases hfocus : ctx.focus with
  | self =>
      refine Stops.bind (Stops.inside ?_) fun _ => .record_return _
      exact (hrecur body _).mono fun _ => h.nest
  | neighbor id exported =>
      rw [nbrAt]
      cases hvalue : exported.get? (ctx.nest (.nbr index)).path with
      | some v => exact .pure v
      | none =>
          rintro slots _ ⟨⟩
          exact h.missed hfocus hvalue

theorem stops_step (expr : Expr) (ctx : Context) : (step recur expr ctx).Stops (reason ctx) := by
  have hdeeper : ∀ expr (inner : Context), ctx.path <+: inner.path → inner.focus = ctx.focus →
      (inside (recur expr inner)).Stops (reason ctx) := by
    intro expr inner hpath hfocus
    exact ((hrecur expr inner).mono fun _ hinner => h.within hinner hpath hfocus).inside
  cases expr with
  | literal v => exact .pure v
  | var name =>
      refine h.located ?_
      rintro fault hfault rfl
      unfold Context.lookup at hfault
      split at hfault <;> cases hfault
  | sense name =>
      refine h.located ?_
      rintro fault hfault rfl
      unfold Context.sense at hfault
      split at hfault <;> cases hfault
  | neighborSense name =>
      refine h.located ?_
      rintro fault hfault rfl
      unfold Context.neighborSense at hfault
      split at hfault <;> cases hfault
  | selfId => exact .pure _
  | lambda code params body => exact .pure _
  | apply function args =>
      rw [step_apply]
      refine (hrecur function ctx).bind fun f => (stops_evalAll hrecur ctx args).bind fun vs => ?_
      exact stops_applyTo h hrecur f vs ctx
  | letIn name value body =>
      rw [step_letIn]
      refine (hrecur value ctx).bind fun v => (hrecur body (ctx.bind name v)).mono fun _ hbody => ?_
      exact h.within hbody List.prefix_rfl rfl
  | branch condition thenSide elseSide =>
      rw [step_branch]
      refine (hrecur condition ctx).bind fun c => ?_
      refine (h.misuse (Builtin.FailsByMisuse.asBool c)).bind fun taken => ?_
      refine Stops.nextSlot.bind fun index => ?_
      have hside := hdeeper (if taken then thenSide else elseSide)
        (ctx.nest (.branch index taken)) (List.prefix_append _ _) rfl
      exact hside.bind fun _ => .record_return _
  | rep init var update =>
      rw [step_rep]
      refine Stops.nextSlot.bind fun index => ?_
      have hvalue : (repAt recur init var update (ctx.nest (.rep index))).Stops (reason ctx) := by
        rw [repAt]
        split
        · exact hdeeper update _ (List.prefix_append _ _) rfl
        · exact hdeeper init _ (List.prefix_append _ _) rfl
      exact hvalue.bind fun _ => .record_return _
  | nbr body =>
      rw [step_nbr]
      exact Stops.nextSlot.bind fun index => stops_nbrAt h hrecur body ctx index
  | neighborFold default accumulator generator includeSelf =>
      rw [step_neighborFold]
      refine (hrecur default ctx).bind fun initial => (hrecur accumulator ctx).bind fun combine => ?_
      refine Stops.nextSlot.bind fun index => ?_
      exact (stops_fold h hrecur initial combine generator includeSelf _).mono fun _ => h.nest

omit hrecur

theorem Reasons.stops_eval (depth : Nat) (expr : Expr) (ctx : Context) :
    (eval depth expr ctx).Stops (reason ctx) := by
  induction depth generalizing expr ctx with
  | zero => exact h.fail nofun
  | succ depth ih => exact stops_step h ih expr ctx

end Node

/-! ## Where errors arise -/

/-- No evaluation stops outside of the place that it began at. -/
theorem reasons_path : Reasons fun ctx interrupt => ctx.path <+: interrupt.path where
  failed _ := List.prefix_rfl
  missed _ _ := List.prefix_append _ _
  within hinner hpath _ := hpath.trans hinner
  toSelf hself := hself
  focusedOn hasked := hasked

end Eval

theorem exists_interrupt {program : Expr} {ctx : Context} {error : EvalError}
    (h : evaluateIn program ctx = .error error) :
    ∃ interrupt, Eval.eval depthLimit program ctx 0 = .error interrupt ∧
      interrupt.path = error.path := by
  unfold evaluateIn at h
  split at h
  · cases h
  all_goals
    rename_i hstops
    cases h
    exact ⟨_, hstops, rfl⟩

/-- An error names the place of the evaluation or one below it. -/
theorem path_prefix_of_error {program : Expr} {ctx : Context} {error : EvalError}
    (h : evaluateIn program ctx = .error error) : ctx.path <+: error.path := by
  obtain ⟨interrupt, hstops, hpath⟩ := exists_interrupt h
  rw [← hpath]
  exact Eval.reasons_path.stops_eval depthLimit program ctx 0 interrupt hstops

end FieldCalculus
