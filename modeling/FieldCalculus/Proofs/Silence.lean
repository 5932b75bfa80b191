import FieldCalculus.Proofs.Eval

/-!
Recording is not observed. A position that does not record comes to the same value or stops for
the same reason, and leaves nothing behind. Whatever is entered under the focus of a neighbor or
inside an accumulator does not record, so all that a fold leaves is what the device tells itself
and the result.
-/

namespace FieldCalculus

namespace Eval

variable {α β : Type}

/-- The computation without what it records. -/
def muted (x : Eval α) : Eval α := fun slots => (x slots).map fun y => { y with puts := [] }

section Sequence

theorem muted_bind (x : Eval α) (f : α → Eval β) :
    (x >>= f).muted = x.muted >>= fun a => (f a).muted := by
  funext slots
  simp only [bind, muted]
  cases x slots with
  | error interrupt => rfl
  | ok y =>
      simp only [Except.map]
      cases f y.value y.slots <;> rfl

theorem muted_inside (x : Eval α) : inside x.muted = (inside x).muted := by
  funext slots
  simp only [inside, muted]
  cases x 0 <;> rfl

theorem muted_present? (x : Eval α) : present? x.muted = (present? x).muted := by
  funext slots
  simp only [present?, muted]
  cases x slots with
  | ok y => rfl
  | error interrupt => cases interrupt <;> rfl

theorem muted_located (ctx : Context) (result : Except Fault α) :
    located ctx.silent result = (located ctx result).muted := by
  cases result <;> rfl

theorem muted_record (ctx : Context) (value : Value) :
    record ctx.silent value = (record ctx value).muted := rfl

/-- A muted computation that finishes has recorded nothing. -/
theorem puts_of_muted {x : Eval α} {slots : Nat} {y : Yield α} (h : x.muted slots = .ok y) :
    y.puts = [] := by
  unfold muted at h
  cases hx : x slots with
  | error interrupt =>
      rw [hx] at h
      cases h
  | ok w =>
      rw [hx] at h
      cases h
      rfl

end Sequence

/-! ## Evaluation at a silent position -/

section Node

variable {recur : Expr → Context → Eval Value}
  (hrecur : ∀ expr ctx, recur expr ctx.silent = (recur expr ctx).muted)

include hrecur

theorem evalAll_silent (ctx : Context) (exprs : List Expr) :
    evalAll recur ctx.silent exprs = (evalAll recur ctx exprs).muted := by
  induction exprs with
  | nil => rfl
  | cons expr rest ih =>
      rw [evalAll, evalAll, hrecur, ih, muted_bind]
      refine bind_congr fun v => ?_
      rw [muted_bind]
      rfl

theorem applyTo_silent (function : Value) (args : List Value) (ctx : Context) :
    applyTo recur function args ctx.silent = (applyTo recur function args ctx).muted := by
  cases function with
  | builtin op => exact muted_located ctx _
  | closure code params body env =>
      rw [applyTo_closure, applyTo_closure]
      split
      · rfl
      · rw [muted_bind]
        refine bind_congr fun index => ?_
        rw [← muted_inside, ← hrecur]
        rfl
  | _ => rfl

/-- Combining neighbors leaves nothing behind, at a position that records as well. -/
theorem foldNeighbors_silent (generator : Expr) (combine : Value) (ctx : Context)
    (neighbors : List (DeviceId × Export)) (acc : Value) :
    foldNeighbors recur generator combine ctx neighbors acc =
      (foldNeighbors recur generator combine ctx neighbors acc).muted := by
  induction neighbors generalizing acc with
  | nil => rfl
  | cons neighbor rest ih =>
      obtain ⟨id, exported⟩ := neighbor
      -- to focus on a neighbor, and to combine, is to be silent already
      have hasked := hrecur generator (ctx.toSelf.focusedOn id exported)
      have hcombined := fun args => applyTo_silent hrecur combine args ctx.silent
      change recur generator (ctx.toSelf.focusedOn id exported) = _ at hasked
      change ∀ args, applyTo recur combine args ctx.silent = _ at hcombined
      rw [foldNeighbors_cons, muted_bind, ← muted_present?, ← muted_inside, ← hasked]
      refine bind_congr fun contribution => ?_
      cases contribution with
      | none => exact ih acc
      | some value =>
          dsimp only
          rw [muted_bind, ← muted_inside, ← hcombined]
          exact bind_congr fun acc => ih acc

theorem foldStart_silent (ctx : Context) (combine initial own : Value) (includeSelf : Bool) :
    foldStart recur ctx combine initial own includeSelf =
      (foldStart recur ctx combine initial own includeSelf).muted := by
  have hcombined : applyTo recur combine [initial, own] ctx.silent =
      (applyTo recur combine [initial, own] ctx.silent).muted :=
    applyTo_silent hrecur combine [initial, own] ctx.silent
  rw [foldStart]
  split
  · rw [← muted_inside, ← hcombined]
  · rfl

theorem fold_silent (initial combine : Value) (generator : Expr) (includeSelf : Bool)
    (ctx : Context) :
    fold recur initial combine generator includeSelf ctx.silent =
      (fold recur initial combine generator includeSelf ctx).muted := by
  have hself : ctx.silent.toSelf = ctx.toSelf.silent := rfl
  have hneighbors : ∀ neighbors start,
      foldNeighbors recur generator combine ctx.silent neighbors start =
        foldNeighbors recur generator combine ctx neighbors start := by
    intro neighbors start
    induction neighbors generalizing start with
    | nil => rfl
    | cons neighbor rest ih =>
        rw [foldNeighbors_cons, foldNeighbors_cons]
        refine bind_congr fun contribution => ?_
        cases contribution with
        | none => exact ih start
        | some value => exact bind_congr fun acc => ih acc
  rw [fold_eq, fold_eq, hself, hrecur, muted_inside, muted_bind]
  refine bind_congr fun own => ?_
  rw [muted_bind, ← foldStart_silent hrecur]
  refine bind_congr fun start => ?_
  rw [muted_bind, ← foldNeighbors_silent hrecur]
  change (foldNeighbors recur generator combine ctx.silent ctx.alignedNeighbors start >>= _) = _
  rw [hneighbors]
  refine bind_congr fun result => ?_
  rw [muted_bind]
  rfl

theorem nbrAt_silent (body : Expr) (focus : Focus) (inner : Context) :
    nbrAt recur body focus inner.silent = (nbrAt recur body focus inner).muted := by
  cases focus with
  | self =>
      rw [nbrAt, nbrAt, hrecur, muted_inside, muted_bind]
      refine bind_congr fun v => ?_
      rw [muted_bind]
      rfl
  | neighbor id exported =>
      change nbrAt recur body (.neighbor id exported) inner = _
      rw [nbrAt]
      split <;> rfl

theorem repAt_silent (init : Expr) (var : String) (update : Expr) (inner : Context) :
    repAt recur init var update inner.silent = (repAt recur init var update inner).muted := by
  have hremembered : inner.silent.remembered = inner.remembered := rfl
  rw [repAt, repAt, hremembered]
  cases inner.remembered with
  | none =>
      dsimp only
      rw [hrecur, muted_inside]
  | some previous =>
      have hbound : inner.silent.bind var previous = (inner.bind var previous).silent := rfl
      dsimp only
      rw [hbound, hrecur, muted_inside]

theorem step_silent (expr : Expr) (ctx : Context) :
    step recur expr ctx.silent = (step recur expr ctx).muted := by
  have hnest : ∀ slot, ctx.silent.nest slot = (ctx.nest slot).silent := fun _ => rfl
  cases expr with
  | literal v => rfl
  | var name => exact muted_located ctx _
  | sense name => exact muted_located ctx _
  | neighborSense name => exact muted_located ctx _
  | selfId => rfl
  | lambda code params body => rfl
  | apply function args =>
      rw [step_apply, step_apply, hrecur, evalAll_silent hrecur, muted_bind]
      refine bind_congr fun f => ?_
      rw [muted_bind]
      exact bind_congr fun vs => applyTo_silent hrecur f vs ctx
  | letIn name value body =>
      rw [step_letIn, step_letIn, hrecur, muted_bind]
      exact bind_congr fun v => hrecur body (ctx.bind name v)
  | branch condition thenSide elseSide =>
      rw [step_branch, step_branch, hrecur, muted_bind]
      refine bind_congr fun c => ?_
      rw [muted_located, muted_bind]
      refine bind_congr fun taken => ?_
      rw [muted_bind]
      refine bind_congr fun index => ?_
      rw [hnest, hrecur, muted_inside, muted_bind]
      refine bind_congr fun v => ?_
      rw [muted_record, muted_bind]
      rfl
  | rep init var update =>
      rw [step_rep, step_rep, muted_bind]
      refine bind_congr fun index => ?_
      rw [hnest, repAt_silent hrecur, muted_bind]
      refine bind_congr fun v => ?_
      rw [muted_record, muted_bind]
      rfl
  | nbr body =>
      rw [step_nbr, step_nbr, muted_bind]
      exact bind_congr fun index => nbrAt_silent hrecur body ctx.focus (ctx.nest (.nbr index))
  | neighborFold default accumulator generator includeSelf =>
      rw [step_neighborFold, step_neighborFold, hrecur, hrecur, muted_bind]
      refine bind_congr fun initial => ?_
      rw [muted_bind]
      refine bind_congr fun combine => ?_
      rw [muted_bind]
      exact bind_congr fun index =>
        fold_silent hrecur initial combine generator includeSelf (ctx.nest (.foldHood index))

omit hrecur

/-- A silent evaluation is the evaluation without what it records. -/
theorem eval_silent (depth : Nat) (expr : Expr) (ctx : Context) :
    eval depth expr ctx.silent = (eval depth expr ctx).muted := by
  induction depth generalizing expr ctx with
  | zero => rfl
  | succ depth ih => exact step_silent ih expr ctx

end Node

/-! ## What a fold leaves behind -/

/-- A fold leaves what its default, its accumulator and the device's own contribution leave, and
its result: nothing from asking the neighbors, and nothing from combining. -/
theorem puts_neighborFold {depth : Nat} {default accumulator generator : Expr} {includeSelf : Bool}
    {ctx : Context} {slots : Nat} {y : Yield Value}
    (h : eval (depth + 1) (.neighborFold default accumulator generator includeSelf) ctx slots =
      .ok y) :
    ∃ initial combine own, eval depth default ctx slots = .ok initial ∧
      eval depth accumulator ctx initial.slots = .ok combine ∧
      eval depth generator (ctx.nest (.foldHood (UInt32.ofNat combine.slots))).toSelf 0 =
        .ok own ∧
      y.puts = initial.puts ++ combine.puts ++ own.puts ++ if ctx.recording then
        [(ctx.path.push (.foldHood (UInt32.ofNat combine.slots)), y.value)] else [] := by
  change step (eval depth) _ ctx slots = _ at h
  rw [step_neighborFold] at h
  obtain ⟨initial, _, hinitial, hrest, rfl⟩ := bind_eq_ok h
  obtain ⟨combine, _, hcombine, hslot, rfl⟩ := bind_eq_ok hrest
  obtain ⟨_, _, hindex, hfold, rfl⟩ := bind_eq_ok hslot
  cases hindex
  rw [fold_eq] at hfold
  obtain ⟨_, _, hinner, hcount, rfl⟩ := bind_eq_ok hfold
  obtain ⟨own, hown, rfl⟩ := inside_eq_ok hinner
  obtain ⟨start, _, hstart, hneighbors, rfl⟩ := bind_eq_ok hcount
  rw [foldStart_silent (eval_silent depth)] at hstart
  obtain ⟨result, _, hresult, hdone, rfl⟩ := bind_eq_ok hneighbors
  rw [foldNeighbors_silent (eval_silent depth)] at hresult
  rw [bind_run (record_run _ _ _), pure_run] at hdone
  cases hdone
  refine ⟨initial, combine, own, hinitial, hcombine, hown, ?_⟩
  simp only [puts_of_muted hstart, puts_of_muted hresult, List.nil_append, List.append_nil,
    List.append_assoc]
  rfl

end Eval

/-! ## What an evaluation in a context comes to -/

theorem exists_yield_of_evaluateIn {program : Expr} {ctx : Context} {result : Evaluation}
    (h : evaluateIn program ctx = .ok result) :
    ∃ y, Eval.eval depthLimit program ctx 0 = .ok y ∧
      result = ⟨y.value, .ofPuts y.puts y.value⟩ := by
  unfold evaluateIn at h
  cases heval : Eval.eval depthLimit program ctx 0 with
  | error interrupt =>
      rw [heval] at h
      cases interrupt <;> cases h
  | ok y =>
      rw [heval] at h
      cases h
      exact ⟨y, rfl, rfl⟩

theorem evaluateIn_congr {program program' : Expr} {ctx ctx' : Context}
    (h : Eval.eval depthLimit program ctx 0 = Eval.eval depthLimit program' ctx' 0) :
    evaluateIn program ctx = evaluateIn program' ctx' := by
  unfold evaluateIn
  rw [h]

/-! ## Positions that tell and hidden positions -/

/-- A position at which the device tells its own values. -/
structure Context.Telling (ctx : Context) : Prop where
  focus : ctx.focus = .self
  recording : ctx.recording = true

namespace Context.Telling

variable {ctx : Context}

theorem nest (h : ctx.Telling) (slot : Slot) : (ctx.nest slot).Telling := ⟨h.focus, h.recording⟩

theorem bind (h : ctx.Telling) (name : String) (value : Value) : (ctx.bind name value).Telling :=
  ⟨h.focus, h.recording⟩

theorem toSelf (h : ctx.Telling) : ctx.toSelf.Telling := ⟨rfl, h.recording⟩

end Context.Telling

/-- The positions with a neighbor in focus and those inside of an accumulator, and all that are
entered from there. -/
inductive Context.Hidden : Context → Prop where
  | asking (ctx : Context) (id : DeviceId) (exported : Export) : Hidden (ctx.focusedOn id exported)
  | combining (ctx : Context) : Hidden ctx.silent
  | nest {ctx : Context} (slot : Slot) : Hidden ctx → Hidden (ctx.nest slot)
  | bind {ctx : Context} (name : String) (value : Value) : Hidden ctx → Hidden (ctx.bind name value)
  | withEnv {ctx : Context} (env : Env) : Hidden ctx → Hidden (ctx.withEnv env)
  | toSelf {ctx : Context} : Hidden ctx → Hidden ctx.toSelf

/-- No position that is entered from a hidden one records again. -/
theorem Context.Hidden.eq_silent {ctx : Context} (h : ctx.Hidden) : ctx = ctx.silent := by
  have hrecording : ctx.recording = false := by
    induction h with
    | asking => rfl
    | combining => rfl
    | nest _ _ ih => exact ih
    | bind _ _ _ ih => exact ih
    | withEnv _ _ ih => exact ih
    | toSelf _ ih => exact ih
  unfold silent
  rw [← hrecording]

theorem Eval.puts_of_hidden {ctx : Context} (hhidden : ctx.Hidden) {depth : Nat} {expr : Expr}
    {slots : Nat} {y : Yield Value} (h : eval depth expr ctx slots = .ok y) : y.puts = [] := by
  rw [hhidden.eq_silent, eval_silent] at h
  exact puts_of_muted h

/-- The outcome with the result as the only entry of the export. -/
def Evaluation.bare (result : Evaluation) : Evaluation :=
  ⟨result.value, .ofPuts [] result.value⟩

theorem Evaluation.toList_bare (result : Evaluation) :
    result.bare.exported.toList = [(Path.root, result.value)] := rfl

theorem evaluateIn_silent (program : Expr) (ctx : Context) :
    evaluateIn program ctx.silent = (evaluateIn program ctx).map Evaluation.bare := by
  unfold evaluateIn
  rw [Eval.eval_silent, Eval.muted]
  cases Eval.eval depthLimit program ctx 0 with
  | ok y => rfl
  | error interrupt => cases interrupt <;> rfl

/-- Recording cannot be observed. A silent evaluation comes to the same value or the same error and
exports the result alone. Evaluation at a hidden position adds no entry to an export, and so a fold
adds only the entries of its default, its accumulator and the device's own contribution, and the
entry of its result. -/
theorem recording_unobservable (program : Expr) (ctx : Context) :
    evaluateIn program ctx.silent = (evaluateIn program ctx).map Evaluation.bare ∧
    (∀ result, evaluateIn program ctx.silent = .ok result →
      result.exported.toList = [(Path.root, result.value)]) ∧
    (∀ (inner : Context) (depth : Nat) (expr : Expr) (slots : Nat) (y : Yield Value),
      inner.Hidden → Eval.eval depth expr inner slots = .ok y → y.puts = []) ∧
    ∀ (place : Context) (depth : Nat) (default accumulator generator : Expr) (includeSelf : Bool)
      (slots : Nat) (y : Yield Value),
      Eval.eval (depth + 1) (.neighborFold default accumulator generator includeSelf) place slots =
        .ok y →
      ∃ initial combine own, Eval.eval depth default place slots = .ok initial ∧
        Eval.eval depth accumulator place initial.slots = .ok combine ∧
        Eval.eval depth generator (place.nest (.foldHood (UInt32.ofNat combine.slots))).toSelf 0 =
          .ok own ∧
        y.puts = initial.puts ++ combine.puts ++ own.puts ++ if place.recording then
          [(place.path.push (.foldHood (UInt32.ofNat combine.slots)), y.value)] else [] := by
  refine ⟨evaluateIn_silent program ctx, ?_, fun _ _ _ _ _ hhidden => Eval.puts_of_hidden hhidden,
    fun _ _ _ _ _ _ _ _ => Eval.puts_neighborFold⟩
  intro result h
  rw [evaluateIn_silent] at h
  cases hloud : evaluateIn program ctx with
  | error interrupt =>
      rw [hloud] at h
      cases h
  | ok loud =>
      rw [hloud] at h
      cases h
      exact loud.toList_bare

/-- The generator tells what a fold inside of it comes to, and the accumulator is a function that
tells neighbors something itself. -/
def nestedFolds : Expr :=
  .fold (.literal (.text "")) (.lambda ⟨"later"⟩ ["x", "y"] (.nbr (.var "y")))
    (.nbr (.foldPlus (.literal .unit) (.lambda ⟨"last"⟩ ["x", "y"] (.var "y")) (.nbr .selfId)))

/-- What the device `a` tells if it has no neighbors. -/
def nestedFoldsEntries : List (Path × Value) :=
  [([.foldHood 0, .nbr 0, .foldHood 0, .nbr 0], .text "a"),
    ([.foldHood 0, .nbr 0, .foldHood 0], .unit), ([.foldHood 0, .nbr 0], .unit),
    ([.foldHood 0], .unit)]

/-- The device `b`, whose neighbor `a` came to the same places. -/
def besideA : RoundInputs :=
  ⟨⟨"b"⟩, SensorTable.empty.sensors, .empty,
    Dict.empty.insert ⟨"a"⟩ (.ofPuts nestedFoldsEntries .unit)⟩

/-- What `b` tells: nothing of what it asks `a` or passes to the functions. -/
def besideAEntries : List (Path × Value) :=
  [([.foldHood 0, .nbr 0, .foldHood 0, .nbr 0], .text "b"),
    ([.foldHood 0, .nbr 0, .foldHood 0], .text "a"), ([.foldHood 0, .nbr 0], .text "a"),
    ([.foldHood 0], .unit)]

theorem nestedFolds_recording_unobservable :
    evaluateIn nestedFolds (.root besideA) = .ok ⟨.unit, .ofPuts besideAEntries .unit⟩ ∧
    evaluateIn nestedFolds (Context.root besideA).silent = .ok ⟨.unit, .ofPuts [] .unit⟩ ∧
    (Context.root besideA).silent.Hidden ∧
    (∀ y, Eval.eval depthLimit nestedFolds (Context.root besideA).silent 0 = .ok y → y.puts = []) ∧
    ∃ own, Eval.eval (depthLimit - 1) (.nbr (.foldPlus (.literal .unit)
        (.lambda ⟨"last"⟩ ["x", "y"] (.var "y")) (.nbr .selfId)))
        ((Context.root besideA).nest (.foldHood 0)).toSelf 0 = .ok own ∧
      besideAEntries = own.puts ++ [([.foldHood 0], .unit)] := by
  have heval : Eval.eval depthLimit nestedFolds (.root besideA) 0 =
      .ok ⟨.unit, 1, besideAEntries⟩ := by cbv
  have hloud : evaluateIn nestedFolds (.root besideA) =
      .ok ⟨.unit, .ofPuts besideAEntries .unit⟩ := by
    rw [evaluateIn, heval]
  obtain ⟨hsilent, -, hhidden, hfold⟩ := recording_unobservable nestedFolds (.root besideA)
  rw [hloud] at hsilent
  refine ⟨hloud, hsilent, .combining _, fun y => hhidden _ _ _ _ y (.combining _), ?_⟩
  obtain ⟨initial, combine, own, hinitial, hcombine, hown, hputs⟩ :=
    hfold (.root besideA) (depthLimit - 1) _ _ _ true 0 _ heval
  cases hinitial
  cases hcombine
  exact ⟨own, hown, hputs⟩

end FieldCalculus
