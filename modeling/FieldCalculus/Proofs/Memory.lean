import FieldCalculus.Proofs.Eval
import FieldCalculus.Proofs.Export
import FieldCalculus.Proofs.Lifetime

/-!
What a device remembers over its whole life. Its state is a digest of its past: at each path
what the last successful round with a `rep` there has recorded, however many rounds lie in
between. A `rep` goes on from nothing else, and nothing else of a round depends on the past.
-/

namespace FieldCalculus

/-! ## The past of a device -/

/-- The reports of the rounds that succeeded, in order of time. -/
def reports (past : List RoundOutcome) : List RoundReport :=
  past.filterMap fun outcome =>
    match outcome with
    | .ok report => some report
    | .error _ => none

/-- The value that was recorded last at a `rep` slot, by the last round that recorded one. -/
def recorded (past : List RoundOutcome) (path : Path) : Option Value :=
  if Path.endsIn path .rep then
    (reports past).reverse.findSome? fun report => report.exported.get? path
  else none

theorem recorded_concat_error (past : List RoundOutcome) (failure : RoundFailure) :
    recorded (past ++ [.error failure]) = recorded past := by
  funext path
  simp [recorded, reports]

theorem recorded_concat_ok (past : List RoundOutcome) (report : RoundReport) (path : Path) :
    recorded (past ++ [.ok report]) path =
      if Path.endsIn path .rep then (report.exported.get? path).or (recorded past path)
      else recorded past path := by
  unfold recorded
  split
  · cases hfound : report.exported.get? path <;> simp [reports, hfound]
  · rfl

namespace Device

variable {d : Device} {past : List RoundOutcome}

theorem remembers_take (h : ∀ path, d.state.get? path = recorded past path) (turn : Turn)
    (path : Path) : (d.take turn).state.get? path =
      recorded (past ++ (d.outcomeOf? turn).toList) path := by
  cases turn with
  | stop =>
      change d.state.get? path = _
      rw [h, outcomeOf?, Option.toList_none, List.append_nil]
  | round s =>
      change (d.round s).1.state.get? path = recorded (past ++ [(d.round s).2]) path
      cases houtcome : evaluate d.program (d.inputs s) with
      | error error =>
          rw [round_of_error houtcome, recorded_concat_error]
          exact h path
      | ok result =>
          rw [round_of_ok houtcome, recorded_concat_ok, DeviceState.get?_absorb_eq, h]

end Device

/-! ## Evaluation from a memory -/

namespace Eval

/-- A `rep` at the position of `inner`: the update of the previous value, if there is one, and
the first value otherwise. -/
def repFrom (recur : Expr → Context → Eval Value) (init : Expr) (var : String) (update : Expr)
    (inner : Context) : Option Value → Eval Value
  | some previous => inside (recur update (inner.bind var previous))
  | none => inside (recur init inner)

/-- The meaning of one node where a memory says from which value a `rep` goes on. -/
def stepBy (memory : Path → Option Value) (recur : Expr → Context → Eval Value) (expr : Expr)
    (ctx : Context) : Eval Value :=
  match expr with
  | .rep init var update => do
    let index ← nextSlot
    let inner := ctx.nest (.rep index)
    let v ← repFrom recur init var update inner (memory inner.path)
    record inner v
    return v
  | other => step recur other ctx

/-- The value of a program in a context whose device state is never looked at. -/
def evalBy (memory : Path → Option Value) (depth : Nat) (expr : Expr) (ctx : Context) :
    Eval Value :=
  match depth with
  | 0 => fail ctx .depthExceeded
  | depth + 1 => stepBy memory (evalBy memory depth) expr ctx

end Eval

/-- Evaluates a program for one round, from a memory in place of the state. -/
def evaluateBy (memory : Path → Option Value) (program : Expr) (inputs : RoundInputs) :
    Except EvalError Evaluation :=
  match Eval.evalBy memory depthLimit program (.root inputs) 0 with
  | .ok y => .ok ⟨y.value, .ofPuts y.puts y.value⟩
  | .error (.failed e) => .error e
  | .error (.absent path) => .error ⟨.unalignedRead, path⟩

def Context.remembering (ctx : Context) (state : DeviceState) : Context :=
  { ctx with inputs := { ctx.inputs with state := state } }

namespace Eval

variable (recur : Expr → Context → Eval Value) (state : DeviceState) (ctx : Context)

theorem evalAll_remembering (exprs : List Expr) :
    evalAll recur (ctx.remembering state) exprs =
      evalAll (fun expr ctx => recur expr (ctx.remembering state)) ctx exprs := by
  induction exprs with
  | nil => rfl
  | cons expr rest ih => rw [evalAll, evalAll, ih]

theorem applyTo_remembering (function : Value) (args : List Value) :
    applyTo recur function args (ctx.remembering state) =
      applyTo (fun expr ctx => recur expr (ctx.remembering state)) function args ctx := by
  cases function <;> rfl

theorem foldNeighbors_remembering (generator : Expr) (combine : Value)
    (neighbors : List (DeviceId × Export)) (acc : Value) :
    foldNeighbors recur generator combine (ctx.remembering state) neighbors acc =
      foldNeighbors (fun expr ctx => recur expr (ctx.remembering state)) generator combine ctx
        neighbors acc := by
  induction neighbors generalizing acc with
  | nil => rfl
  | cons neighbor rest ih =>
      obtain ⟨id, exported⟩ := neighbor
      rw [foldNeighbors_cons, foldNeighbors_cons]
      refine bind_congr fun contribution => ?_
      cases contribution with
      | none => exact ih acc
      | some value =>
          dsimp only
          rw [← applyTo_remembering]
          exact bind_congr fun acc => ih acc

theorem fold_remembering (initial combine : Value) (generator : Expr) (includeSelf : Bool) :
    fold recur initial combine generator includeSelf (ctx.remembering state) =
      fold (fun expr ctx => recur expr (ctx.remembering state)) initial combine generator
        includeSelf ctx := by
  rw [fold_eq, fold_eq]
  refine bind_congr fun own => ?_
  rw [foldStart, foldStart, ← applyTo_remembering]
  refine bind_congr fun start => ?_
  rw [← foldNeighbors_remembering]
  rfl

variable {state} {memory : Path → Option Value}

/-- A node looks at the state of the device only where it is a `rep`, and only at its slot. -/
theorem step_remembering (hmemory : ∀ path, Path.endsIn path .rep → memory path = state.get? path)
    (expr : Expr) : step recur expr (ctx.remembering state) =
      stepBy memory (fun expr ctx => recur expr (ctx.remembering state)) expr ctx := by
  cases expr with
  | rep init var update =>
      rw [step_rep]
      refine bind_congr fun index => ?_
      have hremembered : ((ctx.remembering state).nest (.rep index)).remembered =
          memory (ctx.nest (.rep index)).path := by
        refine (hmemory _ ?_).symm
        simp [Context.nest, Path.endsIn_push, Slot.kind]
      unfold repAt
      rw [hremembered]
      dsimp only
      cases memory (ctx.nest (.rep index)).path <;> rfl
  | apply function args =>
      rw [step_apply, evalAll_remembering]
      refine bind_congr fun f => ?_
      refine bind_congr fun vs => ?_
      exact applyTo_remembering recur state ctx f vs
  | neighborFold default accumulator generator includeSelf =>
      rw [step_neighborFold]
      refine bind_congr fun initial => ?_
      refine bind_congr fun combine => ?_
      refine bind_congr fun index => ?_
      exact fold_remembering recur state (ctx.nest (.foldHood index)) initial combine generator
        includeSelf
  -- the other nodes only pass the context on
  | _ => rfl

theorem eval_remembering (hmemory : ∀ path, Path.endsIn path .rep → memory path = state.get? path)
    (depth : Nat) (expr : Expr) (ctx : Context) :
    eval depth expr (ctx.remembering state) = evalBy memory depth expr ctx := by
  induction depth generalizing expr ctx with
  | zero => rfl
  | succ depth ih =>
      have hparts : (fun expr ctx => eval depth expr (Context.remembering ctx state)) =
          evalBy memory depth := by
        funext expr ctx
        exact ih expr ctx
      rw [eval, evalBy, step_remembering (eval depth) ctx hmemory, hparts]

end Eval

def RoundOutcome.result : RoundOutcome → Except EvalError Evaluation
  | .ok report => .ok ⟨report.value, report.exported⟩
  | .error failure => .error failure.error

namespace Device

theorem result_round (d : Device) (s : Setting) :
    (d.round s).2.result = evaluate d.program (d.inputs s) := by
  cases houtcome : evaluate d.program (d.inputs s) with
  | error error =>
      rw [round_of_error houtcome]
      rfl
  | ok result =>
      rw [round_of_ok houtcome]
      rfl

/-- Through any number of rounds, some of which may fail, a device remembers at each path what
the last successful round with a `rep` there has recorded, and nothing elsewhere. The next round
comes to what the program makes of this memory: a `rep` starts where nothing was ever recorded,
goes on from the recorded value elsewhere, and nothing else depends on the past. -/
theorem state_eq_recorded (id : DeviceId) (program : Expr) (pacing : Pacing)
    (turns : List Turn) :
    let device := (start id program pacing).run turns
    let past := (start id program pacing).outcomes turns
    (∀ path, device.state.get? path = recorded past path) ∧
      ∀ s : Setting, (device.round s).2.result =
        evaluateBy (recorded past) program ⟨id, s.sensors, .empty, s.snapshot⟩ := by
  intro device past
  obtain ⟨hid, hprogram, hstate⟩ : device.id = id ∧ device.program = program ∧
      ∀ path, device.state.get? path = recorded past path := by
    refine run_invariant (fun d past => d.id = id ∧ d.program = program ∧
      ∀ path, d.state.get? path = recorded past path) ⟨rfl, rfl, ?_⟩ ?_ turns
    · intro path
      simp [recorded, reports, start, DeviceState.empty, DeviceState.get?]
    · rintro d past turn ⟨hid, hprogram, hstate⟩
      have hsame := d.same_take turn
      exact ⟨hsame.id.trans hid, hsame.program.trans hprogram, d.remembers_take hstate turn⟩
  refine ⟨hstate, fun s => ?_⟩
  have hinputs : Context.root (device.inputs s) =
      (Context.root ⟨id, s.sensors, .empty, s.snapshot⟩).remembering device.state := by
    rw [← hid]
    rfl
  rw [result_round, evaluate, evaluateIn, hprogram, hinputs,
    Eval.eval_remembering fun path _ => (hstate path).symm]
  rfl

end Device

end FieldCalculus
