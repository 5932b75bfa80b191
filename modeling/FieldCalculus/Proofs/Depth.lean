import FieldCalculus.Proofs.Eval

/-!
More depth changes nothing. An evaluation that may nest deeper does the same as one that may not,
unless the latter has met its bound. So what a program comes to does not depend on the bound,
wherever it comes to something other than that error.
-/

namespace FieldCalculus

/-- The evaluation has met the bound on its depth. -/
def Interrupt.Exceeds : Interrupt → Prop
  | failed error => error.fault = .depthExceeded
  | absent _ => False

namespace Eval

variable {α β : Type}

/-- The second computation does what the first one does, unless that has met the bound on its
depth. -/
def Refines (x y : Eval α) : Prop :=
  ∀ slots, (∃ interrupt, x slots = .error interrupt ∧ interrupt.Exceeds) ∨ x slots = y slots

namespace Refines

theorem refl (x : Eval α) : Refines x x := fun _ => Or.inr rfl

theorem bind {x y : Eval α} {f g : α → Eval β} (hx : Refines x y) (hf : ∀ a, Refines (f a) (g a)) :
    Refines (x >>= f) (y >>= g) := by
  intro slots
  rcases hx slots with ⟨interrupt, hstops, hexceeds⟩ | hsame
  · refine Or.inl ⟨interrupt, ?_, hexceeds⟩
    simp only [Bind.bind, hstops]
  · cases hy : y slots with
    | error interrupt =>
        right
        simp only [Bind.bind, hsame, hy]
    | ok z =>
        rw [hy] at hsame
        rcases hf z.value z.slots with ⟨interrupt, hstops, hexceeds⟩ | hsecond
        · refine Or.inl ⟨interrupt, ?_, hexceeds⟩
          rw [bind_run hsame, hstops]
          rfl
        · right
          rw [bind_run hsame, bind_run hy, hsecond]

theorem inside {x y : Eval α} (h : Refines x y) : Refines (inside x) (inside y) := by
  intro slots
  rcases h 0 with ⟨interrupt, hstops, hexceeds⟩ | hsame
  · refine Or.inl ⟨interrupt, ?_, hexceeds⟩
    rw [Eval.inside, hstops]
  · right
    rw [Eval.inside, Eval.inside, hsame]

/-- That the bound was met is not taken for the absence of a value. -/
theorem present? {x y : Eval α} (h : Refines x y) : Refines (present? x) (present? y) := by
  intro slots
  rcases h slots with ⟨interrupt, hstops, hexceeds⟩ | hsame
  · cases interrupt with
    | failed error =>
        refine Or.inl ⟨.failed error, ?_, hexceeds⟩
        rw [Eval.present?, hstops]
    | absent path => exact absurd hexceeds id
  · right
    rw [Eval.present?, Eval.present?, hsame]

end Refines

/-! ## Each node -/

section Node

variable {f g : Expr → Context → Eval Value} (h : ∀ expr ctx, Refines (f expr ctx) (g expr ctx))

include h

theorem refines_evalAll (ctx : Context) (exprs : List Expr) :
    Refines (evalAll f ctx exprs) (evalAll g ctx exprs) := by
  induction exprs with
  | nil => exact .refl _
  | cons expr rest ih => exact (h expr ctx).bind fun _ => ih.bind fun _ => .refl _

theorem refines_applyTo (function : Value) (args : List Value) (ctx : Context) :
    Refines (applyTo f function args ctx) (applyTo g function args ctx) := by
  cases function with
  | closure code params body env =>
      rw [applyTo_closure, applyTo_closure]
      split
      · exact .refl _
      · exact (Refines.refl _).bind fun index => (h body _).inside
  | _ => exact .refl _

theorem refines_foldNeighbors (generator : Expr) (combine : Value) (ctx : Context)
    (neighbors : List (DeviceId × Export)) (acc : Value) :
    Refines (foldNeighbors f generator combine ctx neighbors acc)
      (foldNeighbors g generator combine ctx neighbors acc) := by
  induction neighbors generalizing acc with
  | nil => exact .refl _
  | cons neighbor rest ih =>
      obtain ⟨id, exported⟩ := neighbor
      rw [foldNeighbors_cons, foldNeighbors_cons]
      refine (h generator _).inside.present?.bind fun contribution => ?_
      cases contribution with
      | none => exact ih acc
      | some value => exact (refines_applyTo h combine _ _).inside.bind fun next => ih next

theorem refines_fold (initial combine : Value) (generator : Expr) (includeSelf : Bool)
    (ctx : Context) :
    Refines (fold f initial combine generator includeSelf ctx)
      (fold g initial combine generator includeSelf ctx) := by
  rw [fold_eq, fold_eq]
  refine (h generator _).inside.bind fun own => ?_
  have hstart : Refines (foldStart f ctx combine initial own includeSelf)
      (foldStart g ctx combine initial own includeSelf) := by
    rw [foldStart, foldStart]
    split
    · exact (refines_applyTo h combine _ _).inside
    · exact .refl _
  refine hstart.bind fun start => ?_
  exact (refines_foldNeighbors h generator combine ctx _ start).bind fun _ => .refl _

theorem refines_step (expr : Expr) (ctx : Context) :
    Refines (step f expr ctx) (step g expr ctx) := by
  cases expr with
  | literal _ | var _ | sense _ | neighborSense _ | selfId | lambda _ _ _ => exact .refl _
  | apply function args =>
      rw [step_apply, step_apply]
      refine (h function ctx).bind fun called => (refines_evalAll h ctx args).bind fun vs => ?_
      exact refines_applyTo h called vs ctx
  | letIn name value body =>
      rw [step_letIn, step_letIn]
      exact (h value ctx).bind fun v => h body _
  | branch condition thenSide elseSide =>
      rw [step_branch, step_branch]
      refine (h condition ctx).bind fun c => (Refines.refl _).bind fun taken => ?_
      exact (Refines.refl _).bind fun index => (h _ _).inside.bind fun _ => .refl _
  | rep init var update =>
      rw [step_rep, step_rep]
      refine (Refines.refl _).bind fun index => ?_
      have hvalue : Refines (repAt f init var update (ctx.nest (.rep index)))
          (repAt g init var update (ctx.nest (.rep index))) := by
        rw [repAt, repAt]
        split
        · exact (h update _).inside
        · exact (h init _).inside
      exact hvalue.bind fun _ => .refl _
  | nbr body =>
      rw [step_nbr, step_nbr]
      refine (Refines.refl _).bind fun index => ?_
      cases ctx.focus with
      | neighbor id exported => exact .refl _
      | self => exact (h body _).inside.bind fun _ => .refl _
  | neighborFold default accumulator generator includeSelf =>
      rw [step_neighborFold, step_neighborFold]
      refine (h default ctx).bind fun initial => (h accumulator ctx).bind fun combine => ?_
      exact (Refines.refl _).bind fun index => refines_fold h initial combine generator _ _

end Node

theorem refines_eval {depth larger : Nat} (hle : depth ≤ larger) (expr : Expr) (ctx : Context) :
    Refines (eval depth expr ctx) (eval larger expr ctx) := by
  induction depth generalizing larger expr ctx with
  | zero => exact fun slots => Or.inl ⟨_, rfl, rfl⟩
  | succ depth ih =>
      obtain ⟨larger, rfl⟩ := Nat.exists_eq_add_of_le' (Nat.le_of_add_left_le hle)
      exact refines_step (ih (Nat.le_of_add_le_add_right hle)) expr ctx

end Eval

/-! ## Rounds -/

variable {depth larger : Nat} {program : Expr} {inputs : RoundInputs}

/-- Evaluates a program for one round, nesting at most `depth` evaluations. -/
def evaluateWithin (depth : Nat) (program : Expr) (inputs : RoundInputs) :
    Except EvalError Evaluation :=
  match Eval.eval depth program (.root inputs) 0 with
  | .ok y => .ok ⟨y.value, .ofPuts y.puts y.value⟩
  | .error (.failed e) => .error e
  | .error (.absent path) => .error ⟨.unalignedRead, path⟩

theorem evaluate_eq_within : evaluate program inputs = evaluateWithin depthLimit program inputs :=
  rfl

/-- What a program comes to within a bound, it comes to within all greater ones. -/
theorem evaluateWithin_of_le (hle : depth ≤ larger)
    (h : ∀ error, evaluateWithin depth program inputs = .error error →
      error.fault ≠ .depthExceeded) :
    evaluateWithin larger program inputs = evaluateWithin depth program inputs := by
  rcases Eval.refines_eval hle program (.root inputs) 0 with ⟨interrupt, hstops, hexceeds⟩ | hsame
  · cases interrupt with
    | failed error =>
        have herror : evaluateWithin depth program inputs = .error error := by
          rw [evaluateWithin, hstops]
        exact absurd hexceeds (h error herror)
    | absent path => exact absurd hexceeds id
  · rw [evaluateWithin, evaluateWithin, hsame]

/-! ## Endless evaluations -/

/-- Calls a function with itself. -/
def selfCall : Expr := .apply (.var "x") [.var "x"]

/-- A function that calls what it is given with itself, given itself. -/
def endless : Expr := .letIn "x" (.lambda ⟨"again"⟩ ["x"] selfCall) selfCall

theorem Context.lookup_bind (ctx : Context) (name : String) (v : Value) :
    (ctx.bind name v).lookup name = .ok v := by
  rw [lookup, bind, Entries.find?_insert_self]

theorem Eval.inside_of_error {α : Type} {x : Eval α} {interrupt : Interrupt}
    (hx : x 0 = .error interrupt) (slots : Nat) : inside x slots = .error interrupt := by
  unfold inside
  rw [hx]

/-- Each call is the next one, one level deeper. -/
theorem Eval.selfCall_exceeds (depth : Nat) {ctx : Context} {code : CodeId} {env : Env}
    (h : ctx.lookup "x" = .ok (.closure code ["x"] selfCall env)) (slots : Nat) :
    ∃ path, eval depth selfCall ctx slots = .error (.failed ⟨.depthExceeded, path⟩) := by
  induction depth generalizing ctx slots with
  | zero => exact ⟨ctx.path, rfl⟩
  | succ depth ih =>
      cases depth with
      | zero => exact ⟨ctx.path, rfl⟩
      | succ depth =>
          have hfunction : eval (depth + 1) (.var "x") ctx slots = .ok ⟨_, slots, []⟩ :=
            eval_var_ok h
          have hargs := evalAll_singleton_ok hfunction
          -- the parameter is bound to the closure itself, over what the closure has captured
          let called := (ctx.nest (.funCall (UInt32.ofNat slots) code)).withEnv env
          obtain ⟨path, hstops⟩ := ih (called.lookup_bind "x" _) 0
          have hcalled : inside (eval (depth + 1) selfCall
              ((ctx.nest (.funCall (UInt32.ofNat slots) code)).withEnv (Entries.insertAll env
                (["x"].zip [.closure code ["x"] selfCall env])))) (slots + 1) =
              .error (.failed ⟨.depthExceeded, path⟩) := inside_of_error hstops _
          refine ⟨path, ?_⟩
          change step (eval (depth + 1)) selfCall ctx slots = _
          rw [selfCall, step_apply, bind_run hfunction, bind_run hargs, applyTo_closure,
            if_neg (by simp), bind_run (nextSlot_run slots)]
          dsimp only
          rw [hcalled]
          rfl

/-- A function that is applied to itself meets every bound on the depth. -/
theorem endless_exceeds (depth : Nat) (inputs : RoundInputs) :
    ∃ path, evaluateWithin depth endless inputs = .error ⟨.depthExceeded, path⟩ := by
  cases depth with
  | zero => exact ⟨_, rfl⟩
  | succ depth =>
      cases depth with
      | zero => exact ⟨_, rfl⟩
      | succ depth =>
          have hlookup := (Context.root inputs).lookup_bind "x"
            (.closure ⟨"again"⟩ ["x"] selfCall [])
          obtain ⟨path, hstops⟩ := Eval.selfCall_exceeds (depth + 1) hlookup 0
          have heval : Eval.eval (depth + 2) endless (.root inputs) 0 =
              .error (.failed ⟨.depthExceeded, path⟩) := by
            have hfunction : Eval.eval (depth + 1) (.lambda ⟨"again"⟩ ["x"] selfCall)
                (.root inputs) 0 = .ok ⟨_, 0, []⟩ := rfl
            change Eval.step (Eval.eval (depth + 1)) endless (.root inputs) 0 = _
            rw [endless, Eval.step_letIn, Eval.bind_run hfunction]
            exact congrArg _ hstops
          exact ⟨path, by rw [evaluateWithin, heval]⟩

end FieldCalculus
