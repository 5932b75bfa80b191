import FieldCalculus.Proofs.Broadcast.Round
import FieldCalculus.Proofs.Nesting
import FieldCalculus.Proofs.Stopping

/-!
What a broadcast makes of its payload away from the sources. The operator that chooses between the
payload and what the neighbors told is strict. From its second round on a device evaluates the
payload, and drops it then if it is not a source: nothing is seen of the value, but if there is
none, the round fails.
-/

namespace FieldCalculus

/-- The program applies operators to literals, readings of sensors and the device's id. -/
inductive Expr.ReadsOnly : Expr → Prop where
  | literal (v : Value) : ReadsOnly (.literal v)
  | sense (name : String) : ReadsOnly (.sense name)
  | neighborSense (name : String) : ReadsOnly (.neighborSense name)
  | selfId : ReadsOnly .selfId
  | call (op : Builtin) {args : List Expr} (args_readsOnly : ∀ e ∈ args, ReadsOnly e) :
    ReadsOnly (.call op args)

/-! ## Programs that only read -/

namespace Eval

variable {α β : Type} {inputs : RoundInputs}

theorem fail_bind (ctx : Context) (fault : Fault) (f : α → Eval β) :
    (fail ctx fault >>= f) = fail ctx fault := rfl

theorem eval_call (depth : Nat) (op : Builtin) (args : List Expr) (ctx : Context) :
    eval (depth + 2) (.call op args) ctx =
      evalAll (eval (depth + 1)) ctx args >>= fun vs => located ctx (op.call vs) :=
  pure_bind (Value.builtin op) fun f =>
    evalAll (eval (depth + 1)) ctx args >>= fun vs => applyTo (eval (depth + 1)) f vs ctx

theorem path_of_located_error {ctx : Context} {result : Except Fault α} {slots : Nat}
    {interrupt : Interrupt} (h : located ctx result slots = .error interrupt) :
    interrupt.path = ctx.path := by
  cases result with
  | ok a => cases h
  | error fault =>
      cases h
      rfl

theorem located_bind (ctx : Context) (result : Except Fault α) (f : α → Except Fault β) :
    (located ctx result >>= fun a => located ctx (f a)) = located ctx (result >>= f) := by
  cases result with
  | error fault => rfl
  | ok a => exact pure_bind a _

/-- Wherever the device itself is in focus, the computation comes to the result, and a fault is
one of this place. -/
def Reads (x : Context → Eval α) (inputs : RoundInputs) (result : Except Fault α) : Prop :=
  ∀ ctx, ctx.inputs = inputs → ctx.focus = .self → x ctx = located ctx result

theorem reads_literal (depth : Nat) (v : Value) :
    Reads (eval (depth + 1) (.literal v)) inputs (.ok v) :=
  fun _ _ _ => rfl

theorem reads_selfId (depth : Nat) :
    Reads (eval (depth + 1) .selfId) inputs (.ok (.text inputs.device.name)) := by
  rintro ctx rfl -
  rfl

theorem reads_sense (depth : Nat) (name : String) :
    Reads (eval (depth + 1) (.sense name)) inputs ((Context.root inputs).sense name) := by
  rintro ctx rfl -
  rfl

theorem reads_neighborSense (depth : Nat) (name : String) : Reads
    (eval (depth + 1) (.neighborSense name)) inputs ((Context.root inputs).neighborSense name) := by
  rintro ctx rfl hself
  rw [eval, step_neighborSense, Context.neighborSense, Context.target, hself]
  rfl

theorem exists_reads_evalAll {depth : Nat} {exprs : List Expr}
    (h : ∀ e ∈ exprs, ∃ result, Reads (eval depth e) inputs result) :
    ∃ results, Reads (fun ctx => evalAll (eval depth) ctx exprs) inputs results := by
  induction exprs with
  | nil => exact ⟨.ok [], fun ctx _ _ => rfl⟩
  | cons e rest ih =>
      obtain ⟨result, hresult⟩ := h e List.mem_cons_self
      obtain ⟨results, hresults⟩ := ih fun other hmem => h other (List.mem_cons_of_mem _ hmem)
      refine ⟨result >>= fun v => results >>= fun vs => .ok (v :: vs), fun ctx hinputs hself => ?_⟩
      dsimp only
      rw [← located_bind, evalAll, hresult ctx hinputs hself]
      refine bind_congr (m := Eval) fun v => ?_
      rw [← located_bind]
      exact congrArg (· >>= _) (hresults ctx hinputs hself)

/-- A program that only reads opens no slot and records nothing, and comes to the same at each
place. -/
theorem exists_reads {e : Expr} (h : e.ReadsOnly) (depth : Nat) (inputs : RoundInputs) :
    ∃ result, Reads (eval depth e) inputs result := by
  induction depth generalizing e with
  | zero => exact ⟨.error .depthExceeded, fun ctx _ _ => rfl⟩
  | succ depth ih =>
      cases h with
      | literal v => exact ⟨_, reads_literal depth v⟩
      | sense name => exact ⟨_, reads_sense depth name⟩
      | neighborSense name => exact ⟨_, reads_neighborSense depth name⟩
      | selfId => exact ⟨_, reads_selfId depth⟩
      | call op hargs =>
          cases depth with
          | zero => exact ⟨.error .depthExceeded, fun ctx _ _ => rfl⟩
          | succ depth =>
              obtain ⟨results, hresults⟩ := exists_reads_evalAll fun e hmem => ih (hargs e hmem)
              refine ⟨results >>= op.call, fun ctx hinputs hself => ?_⟩
              rw [eval_call, ← located_bind, ← hresults ctx hinputs hself]

end Eval

namespace Broadcast

open Eval
open HopGradient (valuePath foldPath sense_root)

variable {inputs : RoundInputs} {source : String} {payload other : Expr}

/-- What a device goes on with from its second round on: the payload if it is a source, and what
the neighbors told if it is not. -/
def updateWith (source : String) (payload : Expr) : Expr := .call .mux
  [.sense source, .call .tuple [.number (.ofNat 0), payload],
    .foldPlus unreached Library.closer relayed]

/-- Away from the sources the payload is evaluated first, then it is dropped. -/
theorem eval_updateWith (depth : Nat) {ctx : Context}
    (hsource : ctx.sense source = .ok (.bool false)) :
    eval (depth + 3) (updateWith source payload) ctx = eval (depth + 1) payload ctx >>= fun _ =>
      eval (depth + 2) (.foldPlus unreached Library.closer relayed) ctx := by
  have hreading : eval (depth + 2) (.sense source) ctx = pure (.bool false) := by
    rw [eval, step_sense, hsource]
    rfl
  have hzero : eval (depth + 1) (.number (.ofNat 0)) ctx = pure (.number (.ofNat 0)) := rfl
  have hpair : eval (depth + 2) (.call .tuple [.number (.ofNat 0), payload]) ctx =
      eval (depth + 1) payload ctx >>= fun v => pure (.tuple [.number (.ofNat 0), v]) := by
    rw [eval_call, evalAll, hzero, pure_bind, evalAll]
    simp only [evalAll, bind_assoc, pure_bind]
    rfl
  rw [updateWith, eval_call, evalAll, hreading, pure_bind, evalAll, hpair]
  simp only [evalAll, bind_assoc, pure_bind]
  refine bind_congr fun dropped => ?_
  exact bind_pure _

theorem path_prefix_of_fold_error {depth slots : Nat} {ctx : Context} {interrupt : Interrupt}
    (h : eval (depth + 3) (.foldPlus unreached Library.closer relayed) ctx slots =
      .error interrupt) :
    ctx.path.push (.foldHood (UInt32.ofNat slots)) <+: interrupt.path := by
  have hcombine : eval (depth + 2) Library.closer ctx slots =
      .ok ⟨.closure (.ofContent ["a", "b"] choice) ["a", "b"] choice ctx.env, slots, []⟩ := rfl
  rw [eval, Expr.foldPlus, step_neighborFold, bind_run (eval_unreached depth slots),
    bind_run hcombine, bind_run (nextSlot_run slots)] at h
  cases hfold : fold (eval (depth + 2)) Relay.unreached.value
      (.closure (.ofContent ["a", "b"] choice) ["a", "b"] choice ctx.env) relayed false
      (ctx.nest (.foldHood (UInt32.ofNat slots))) (slots + 1) with
  | ok y =>
      rw [hfold] at h
      cases h
  | error other =>
      rw [hfold] at h
      cases h
      exact stops_fold reasons_path (reasons_path.stops_eval _) _ _ _ _ _ _ _ hfold

/-! ## The round around the update -/

/-- What stands behind the only `rep` slot of a round. -/
def field (source : String) (payload : Expr) (inputs : RoundInputs) : Eval Value :=
  repAt (eval 1048574) unreached "g" (updateWith source payload)
    ((Context.root inputs).nest (.rep 0))

/-- The rest of the round: what stands there is recorded, and its second item is the result. -/
def outcome (inputs : RoundInputs) (field : Eval Value) : Eval Value := do
  let pair ← field
  record ((Context.root inputs).nest (.rep 0)) pair
  located (.root inputs) (Builtin.get.call [pair, .number (.ofNat 1)])

theorem eval_broadcast (source : String) (payload : Expr) (inputs : RoundInputs) :
    eval depthLimit (Library.broadcast source payload) (.root inputs) 0 =
      outcome inputs (field source payload inputs) 1 := by
  have hdepth : depthLimit = 1048574 + 2 := rfl
  have hbroadcast : Library.broadcast source payload =
      .call .get [.rep unreached "g" (updateWith source payload), .number (.ofNat 1)] := rfl
  have hone : eval (1048574 + 1) (.number (.ofNat 1)) (.root inputs) =
      pure (.number (.ofNat 1)) := rfl
  rw [hdepth, hbroadcast, eval_call, evalAll, evalAll, evalAll, hone, eval, step_rep]
  simp only [bind_assoc, pure_bind]
  rw [bind_run (nextSlot_run 0)]
  change Except.map _ (outcome inputs (field source payload inputs) 1) = _
  cases outcome inputs (field source payload inputs) 1 <;> rfl

theorem evaluate_of_field (h : field source payload inputs = field source other inputs) :
    evaluate (Library.broadcast source payload) inputs =
      evaluate (Library.broadcast source other) inputs := by
  rw [evaluate, evaluate, evaluateIn, evaluateIn, eval_broadcast, eval_broadcast, h]

/-- In its first round a device does not look at the payload. -/
theorem evaluate_fresh (hfresh : inputs.state.get? valuePath = none) :
    evaluate (Library.broadcast source payload) inputs = .ok ⟨.unit, firstExport⟩ := by
  have hremembered : ((Context.root inputs).nest (.rep 0)).remembered = none := hfresh
  have hfield : field source payload inputs = field source .selfId inputs := by
    rw [field, field, repAt, repAt, hremembered]
  exact (evaluate_of_field hfield).trans (evaluate_first hfresh)

/-- What the payload fails for at the depth that a round has reached there, if it fails. -/
def payloadFault? (payload : Expr) (inputs : RoundInputs) : Option Fault :=
  match eval (depthLimit - 4) payload (.root inputs) 0 with
  | .error (.failed error) => some error.fault
  | _ => none

theorem payloadFault?_of_reads {result : Except Fault Value}
    (h : Reads (eval 1048572 payload) inputs result) :
    payloadFault? payload inputs = match result with
      | .ok _ => none
      | .error fault => some fault := by
  have hdepth : depthLimit - 4 = 1048572 := rfl
  rw [payloadFault?, hdepth, h (.root inputs) rfl rfl]
  cases result <;> rfl

/-- Where a device with a pair goes on. -/
def later (inputs : RoundInputs) (last : Value) : Context :=
  ((Context.root inputs).nest (.rep 0)).bind "g" last

section Later

variable {last : Value} (hsource : inputs.sensors.sense source = some (.bool false))
  (hlast : inputs.state.get? valuePath = some last)

include hsource hlast

theorem field_later : field source payload inputs =
    inside (eval 1048572 payload (later inputs last) >>= fun _ =>
      eval 1048573 (.foldPlus unreached Library.closer relayed) (later inputs last)) := by
  have hremembered : ((Context.root inputs).nest (.rep 0)).remembered = some last := hlast
  have hsense : (later inputs last).sense source = .ok (.bool false) := sense_root hsource (.rep 0)
  have hupdate : eval 1048574 (updateWith source payload) (later inputs last) = _ :=
    eval_updateWith 1048571 hsense
  rw [field, repAt, hremembered]
  change inside (eval 1048574 (updateWith source payload) (later inputs last)) = _
  rw [hupdate]

theorem field_of_value {v : Value} (h : Reads (eval 1048572 payload) inputs (.ok v)) :
    field source payload inputs =
      inside (eval 1048573 (.foldPlus unreached Library.closer relayed) (later inputs last)) := by
  rw [field_later hsource hlast, h _ rfl rfl, located, pure_bind]

/-- Which value the payload has makes no difference. -/
theorem evaluate_of_values {v w : Value} (h : Reads (eval 1048572 payload) inputs (.ok v))
    (hother : Reads (eval 1048572 other) inputs (.ok w)) :
    evaluate (Library.broadcast source payload) inputs =
      evaluate (Library.broadcast source other) inputs := by
  refine evaluate_of_field ?_
  rw [field_of_value hsource hlast h, field_of_value hsource hlast hother]

theorem evaluate_of_fault {fault : Fault}
    (h : Reads (eval 1048572 payload) inputs (.error fault)) :
    evaluate (Library.broadcast source payload) inputs = .error ⟨fault, valuePath⟩ := by
  have hfield : field source payload inputs = fail (later inputs last) fault := by
    rw [field_later hsource hlast, h _ rfl rfl, located, fail_bind]
    rfl
  rw [evaluate, evaluateIn, eval_broadcast, hfield]
  rfl

/-- A round whose payload has a value may fail in its result or in the exchange, but not at the
place in between where a payload fails. -/
theorem path_ne_of_value {v : Value} (h : Reads (eval 1048572 payload) inputs (.ok v))
    {error : EvalError}
    (herror : evaluate (Library.broadcast source payload) inputs = .error error) :
    error.path ≠ valuePath := by
  obtain ⟨interrupt, hstops, hpath⟩ := exists_interrupt herror
  rw [eval_broadcast, field_of_value hsource hlast h, outcome] at hstops
  rw [← hpath]
  rcases bind_eq_error hstops with hfield | ⟨pair, -, hrest⟩
  · have hfold : eval (1048570 + 3) (.foldPlus unreached Library.closer relayed) (later inputs last)
        0 = .error interrupt := inside_eq_error hfield
    have hbelow : foldPath <+: interrupt.path := path_prefix_of_fold_error hfold
    rintro hvalue
    rw [hvalue] at hbelow
    exact absurd hbelow (by decide)
  · rcases bind_eq_error hrest with hrecord | ⟨_, -, hresult⟩
    · cases hrecord
    · rw [path_of_located_error hresult]
      exact nofun

/-- In a later round the payloads show through their faults only. -/
theorem later_eq_iff {result result' : Except Fault Value}
    (h : Reads (eval 1048572 payload) inputs result)
    (hother : Reads (eval 1048572 other) inputs result') :
    evaluate (Library.broadcast source payload) inputs =
        evaluate (Library.broadcast source other) inputs ↔
      payloadFault? payload inputs = payloadFault? other inputs := by
  rw [payloadFault?_of_reads h, payloadFault?_of_reads hother]
  cases result with
  | ok v =>
      cases result' with
      | ok w => simp [evaluate_of_values hsource hlast h hother]
      | error fault =>
          rw [evaluate_of_fault hsource hlast hother]
          refine ⟨fun hsame => ?_, nofun⟩
          exact absurd rfl (path_ne_of_value hsource hlast h hsame)
  | error fault =>
      rw [evaluate_of_fault hsource hlast h]
      cases result' with
      | ok w =>
          refine ⟨fun hsame => ?_, nofun⟩
          exact absurd rfl (path_ne_of_value hsource hlast hother hsame.symm)
      | error fault' =>
          rw [evaluate_of_fault hsource hlast hother]
          simp

end Later

/-- Away from the sources, whatever a device remembers and hears, rounds with two payloads that only
read come to the same value, export or error if it is the first round or neither payload fails or
both fail for the same fault, and only then. In the first round the payload does not count. From
then on the round of a payload that fails is abandoned with its fault. -/
theorem elsewhere_eq_iff (hpayload : payload.ReadsOnly) (hother : other.ReadsOnly)
    (hsource : inputs.sensors.sense source = some (.bool false)) :
    (evaluate (Library.broadcast source payload) inputs =
        evaluate (Library.broadcast source other) inputs ↔
      inputs.state.get? valuePath = none ∨
        payloadFault? payload inputs = payloadFault? other inputs) ∧
    (inputs.state.get? valuePath = none →
      evaluate (Library.broadcast source payload) inputs = .ok ⟨.unit, firstExport⟩) ∧
    ∀ fault, (inputs.state.get? valuePath).isSome → payloadFault? payload inputs = some fault →
      evaluate (Library.broadcast source payload) inputs = .error ⟨fault, valuePath⟩ := by
  obtain ⟨result, hreads⟩ := exists_reads hpayload 1048572 inputs
  obtain ⟨result', hreads'⟩ := exists_reads hother 1048572 inputs
  refine ⟨?_, evaluate_fresh, ?_⟩
  · cases hlast : inputs.state.get? valuePath with
    | none => simp [evaluate_fresh hlast]
    | some last =>
        rw [later_eq_iff hsource hlast hreads hreads', or_iff_right nofun]
  · intro fault hsome hfailed
    obtain ⟨last, hlast⟩ := Option.isSome_iff_exists.mp hsome
    rw [payloadFault?_of_reads hreads] at hfailed
    cases result with
    | ok v => cases hfailed
    | error other =>
        cases hfailed
        exact evaluate_of_fault hsource hlast hreads

/-- A device that is no source, has no thermometer and has done one round. -/
def unequipped : RoundInputs where
  device := ⟨"a"⟩
  sensors := (SensorTable.empty.set "source" (.bool false)).sensors
  state := ⟨.ofList [(valuePath, Relay.unreached.value)]⟩
  neighbors := .empty

theorem unequipped_sense : unequipped.sensors.sense "source" = some (.bool false) := rfl

theorem unequipped_remembers :
    unequipped.state.get? valuePath = some Relay.unreached.value := rfl

/-- It does the same round whichever value it would send as a source. -/
theorem unequipped_eq : (Expr.literal (.bool true)).ReadsOnly ∧ (Expr.literal .unit).ReadsOnly ∧
    unequipped.sensors.sense "source" = some (.bool false) ∧
    evaluate (Library.broadcast "source" (.literal (.bool true))) unequipped =
      evaluate (Library.broadcast "source" (.literal .unit)) unequipped := by
  have hfault : payloadFault? (.literal (.bool true)) unequipped =
      payloadFault? (.literal .unit) unequipped := by
    rw [payloadFault?_of_reads (reads_literal 1048571 _),
      payloadFault?_of_reads (reads_literal 1048571 _)]
  have hsame := (elsewhere_eq_iff (.literal (.bool true)) (.literal .unit) unequipped_sense).1
  exact ⟨.literal _, .literal _, unequipped_sense, hsame.mpr (Or.inr hfault)⟩

/-- With a reading of the temperature for a payload, which it would not send, the round fails,
although it succeeds with a literal. -/
theorem unequipped_fails : (Expr.sense "temp").ReadsOnly ∧ (Expr.literal .unit).ReadsOnly ∧
    unequipped.sensors.sense "source" = some (.bool false) ∧
    evaluate (Library.broadcast "source" (.sense "temp")) unequipped =
      .error ⟨.sensorUnavailable "temp", valuePath⟩ ∧
    evaluate (Library.broadcast "source" (.literal .unit)) unequipped =
      .ok ⟨.unit, laterExport .unreached .unreached .unreached⟩ := by
  have hmissing : Reads (eval 1048572 (.sense "temp")) unequipped
      (.error (.sensorUnavailable "temp")) := reads_sense 1048571 "temp"
  have hsent : evaluate (Library.broadcast "source" .selfId) unequipped =
      .ok ⟨.unit, laterExport .unreached .unreached .unreached⟩ :=
    evaluate_later unequipped_sense unequipped_remembers .nil
  refine ⟨.sense _, .literal _, unequipped_sense, ?_, ?_⟩
  · exact evaluate_of_fault unequipped_sense unequipped_remembers hmissing
  · rw [← hsent]
    exact evaluate_of_values unequipped_sense unequipped_remembers (reads_literal 1048571 _)
      (reads_selfId 1048571)

end Broadcast

end FieldCalculus
