import FieldCalculus.Proofs.Coincidence
import FieldCalculus.Proofs.Nesting
import FieldCalculus.Proofs.Siblings
import FieldCalculus.Proofs.Silence

/-!
What a device reads of a neighbor in the same situation. Asking a neighbor skips the bodies of the
`nbr` constructs and reads what the neighbor recorded instead. If that is what the device itself
would record, then asking opens the same slots as telling and comes to the same value, so that the
neighbor contributes to a fold what the device itself would.
-/

namespace FieldCalculus

/-! ## Mirrored positions -/

/-- The device tells its own values, readings relative to `id` are as those relative to itself, and
all values in reach hold nodes among these only. -/
structure Context.Mirrored (nodes : List Expr) (id : DeviceId) (ctx : Context) : Prop where
  within : ctx.All (Value.Within nodes)
  telling : ctx.Telling
  reads : ∀ name, ctx.inputs.sensors.neighborSense name id =
    ctx.inputs.sensors.neighborSense name ctx.inputs.device

namespace Context.Mirrored

variable {nodes : List Expr} {id : DeviceId} {ctx : Context}

theorem nest (h : ctx.Mirrored nodes id) (slot : Slot) : (ctx.nest slot).Mirrored nodes id :=
  ⟨h.within.nest slot, h.telling.nest slot, h.reads⟩

theorem bind (h : ctx.Mirrored nodes id) (name : String) {v : Value} (hv : v.Within nodes) :
    (ctx.bind name v).Mirrored nodes id :=
  ⟨h.within.bind name hv, h.telling.bind name v, h.reads⟩

theorem called (h : ctx.Mirrored nodes id) {params : List String} {args : List Value} {env : Env}
    (henv : ∀ entry ∈ env, entry.2.Within nodes) (hargs : ∀ v ∈ args, v.Within nodes) :
    (ctx.withEnv (Entries.insertAll env (params.zip args))).Mirrored nodes id :=
  ⟨h.within.called henv hargs, ⟨h.telling.focus, h.telling.recording⟩, h.reads⟩

theorem neighborSense (h : ctx.Mirrored nodes id) (exported : Export) (name : String) :
    (ctx.focusedOn id exported).neighborSense name = ctx.neighborSense name := by
  unfold Context.neighborSense Context.target
  rw [h.telling.focus]
  dsimp only [focusedOn]
  rw [h.reads name]

end Context.Mirrored

/-! ## Neighbors that take part -/

theorem Context.alignedNeighbors_empty {ctx : Context} (h : ctx.inputs.neighbors = .empty) :
    ctx.alignedNeighbors = [] := by
  rw [alignedNeighbors, h]
  rfl

theorem Context.alignedNeighbors_single {ctx : Context} {id : DeviceId} {exported : Export}
    (hneighbors : ctx.inputs.neighbors = Dict.empty.insert id exported)
    (hid : id ≠ ctx.inputs.device) (haligned : exported.contains ctx.path) :
    ctx.alignedNeighbors = [(id, exported)] := by
  have hkept : (decide (id ≠ ctx.inputs.device) && exported.contains ctx.path) = true := by
    rw [Bool.and_eq_true, decide_eq_true_iff]
    exact ⟨hid, haligned⟩
  rw [alignedNeighbors, hneighbors]
  exact List.filter_cons_of_pos hkept

namespace Eval

/-! ## Computations that find what others record -/

section Sequence

variable {α β : Type} {exported : Export}

/-- If the first computation finishes and the export holds all that it records, then the second one
finishes alike and records nothing. -/
def Mirrors (exported : Export) (x x' : Eval α) : Prop :=
  ∀ slots y, x slots = .ok y → (∀ put ∈ y.puts, exported.get? put.1 = some put.2) →
    x' slots = .ok { y with puts := [] }

theorem mirrors_pure (a : α) : Mirrors exported (pure a : Eval α) (pure a) := by
  rintro slots _ ⟨⟩ -
  rfl

theorem mirrors_fail {ctx ctx' : Context} {fault : Fault} :
    Mirrors exported (fail ctx fault : Eval α) (fail ctx' fault) := by
  intro slots y hy
  cases hy

theorem mirrors_nextSlot : Mirrors exported nextSlot nextSlot := by
  rintro slots _ ⟨⟩ -
  rfl

theorem mirrors_located {ctx ctx' : Context} (result : Except Fault α) :
    Mirrors exported (located ctx result) (located ctx' result) := by
  cases result with
  | ok a => exact mirrors_pure a
  | error fault => exact mirrors_fail

/-- What goes on need only mirror what goes on from values that the first computation has. -/
theorem Mirrors.bind {x x' : Eval α} {f f' : α → Eval β} (hx : Mirrors exported x x')
    (hf : ∀ slots y, x slots = .ok y → Mirrors exported (f y.value) (f' y.value)) :
    Mirrors exported (x >>= f) (x' >>= f') := by
  intro slots z hz hputs
  obtain ⟨y, w, hy, hw, rfl⟩ := bind_eq_ok hz
  obtain ⟨hfirst, hsecond⟩ := List.forall_mem_append.mp hputs
  rw [bind_run (hx slots y hy hfirst), hf slots y hy y.slots w hw hsecond]
  rfl

theorem Mirrors.inside {x x' : Eval α} (h : Mirrors exported x x') :
    Mirrors exported (inside x) (inside x') := by
  intro slots y hy hputs
  obtain ⟨w, hw, rfl⟩ := inside_eq_ok hy
  exact inside_of_ok (h 0 w hw hputs) slots

/-- What is recorded at a position that tells is not recorded in the mirror. -/
theorem mirrors_record_return {ctx : Context} {id : DeviceId} (value : Value) :
    Mirrors exported (do record ctx value; return value)
      (do record (ctx.focusedOn id exported) value; return value) := by
  intro slots y hy _
  rw [bind_run (record_run ctx value slots), pure_run] at hy
  cases hy
  rfl

end Sequence

/-! ## Evaluation -/

section Node

variable {nodes : List Expr} {id : DeviceId} {exported : Export} {ctx : Context}
  {recur : Expr → Context → Eval Value}

/-- Where functions do not fold, asking is the mirror of telling. -/
def MirrorsOn (nodes : List Expr) (id : DeviceId) (exported : Export)
    (recur : Expr → Context → Eval Value) : Prop :=
  ∀ {e : Expr} {ctx : Context}, e.nodes ⊆ nodes → ctx.Mirrored nodes id →
    Mirrors exported (recur e ctx) (recur e (ctx.focusedOn id exported))

variable (hkeeps : KeepsWithin nodes recur) (hrecur : MirrorsOn nodes id exported recur)

include hrecur

theorem mirrors_evalAll {es : List Expr} (hes : ∀ e ∈ es, e.nodes ⊆ nodes)
    (hctx : ctx.Mirrored nodes id) :
    Mirrors exported (evalAll recur ctx es) (evalAll recur (ctx.focusedOn id exported) es) := by
  induction es with
  | nil => exact mirrors_pure []
  | cons e rest ih =>
      obtain ⟨he, hrest⟩ := List.forall_mem_cons.mp hes
      refine (hrecur he hctx).bind fun _ _ _ => (ih hrest).bind fun _ _ _ => ?_
      exact mirrors_pure _

theorem mirrors_applyTo {function : Value} {args : List Value} (hfunction : function.Within nodes)
    (hargs : ∀ v ∈ args, v.Within nodes) (hctx : ctx.Mirrored nodes id) :
    Mirrors exported (applyTo recur function args ctx)
      (applyTo recur function args (ctx.focusedOn id exported)) := by
  cases function with
  | builtin b => exact mirrors_located _
  | closure code params body env =>
      obtain ⟨hlambda, henv⟩ := Value.Within.closure_iff.mp hfunction
      rw [Expr.nodes, List.cons_subset] at hlambda
      rw [applyTo_closure, applyTo_closure]
      split
      · exact mirrors_fail
      · refine mirrors_nextSlot.bind fun _ _ _ => ?_
        exact (hrecur hlambda.2 ((hctx.nest _).called henv hargs)).inside
  | _ => exact mirrors_fail

theorem mirrors_repAt (hctx : ctx.Mirrored nodes id) {init update : Expr} (name : String)
    (hinit : init.nodes ⊆ nodes) (hupdate : update.nodes ⊆ nodes) :
    Mirrors exported (repAt recur init name update ctx)
      (repAt recur init name update (ctx.focusedOn id exported)) := by
  have hremembered : (ctx.focusedOn id exported).remembered = ctx.remembered := rfl
  rw [repAt, repAt, hremembered]
  cases hprevious : ctx.remembered with
  | none => exact (hrecur hinit hctx).inside
  | some previous =>
      exact (hrecur hupdate (hctx.bind name (hctx.within.remembered hprevious))).inside

omit hrecur in
/-- What the device tells at an `nbr` slot is read there. -/
theorem mirrors_nbrAt (htelling : ctx.Telling) (body : Expr) :
    Mirrors exported (nbrAt recur body .self ctx)
      (nbrAt recur body (.neighbor id exported) (ctx.focusedOn id exported)) := by
  intro slots y hy hputs
  rw [nbrAt, inside_record_run, htelling.recording] at hy
  cases hw : recur body ctx 0 with
  | error interrupt =>
      rw [hw] at hy
      cases hy
  | ok w =>
      rw [hw] at hy
      cases hy
      have htold : exported.get? (ctx.focusedOn id exported).path = some w.value :=
        hputs (ctx.path, w.value) (by simp)
      rw [nbrAt, htold]
      rfl

include hkeeps

theorem mirrors_step (hfolds : ∀ node ∈ nodes, node.isFold = false) :
    MirrorsOn nodes id exported (step recur) := by
  intro e ctx he hctx
  cases e with
  | literal _ | selfId | lambda _ _ _ => exact mirrors_pure _
  | var _ | sense _ => exact mirrors_located _
  | neighborSense name =>
      rw [step_neighborSense, step_neighborSense, hctx.neighborSense]
      exact mirrors_located _
  | apply function args =>
      rw [Expr.nodes, List.cons_subset, List.append_subset, Expr.nodesAll_subset] at he
      obtain ⟨-, hfunction, hargs⟩ := he
      rw [step_apply, step_apply]
      refine (hrecur hfunction hctx).bind fun slots f hf => ?_
      refine (mirrors_evalAll hrecur hargs hctx).bind fun slots' vs hvs => ?_
      have hcalled := (hkeeps hfunction _ ctx hctx.within rfl).finished slots f hf
      have hgiven := (keeps_evalAll hctx.within
        fun arg harg => hkeeps (hargs arg harg) ctx.env).finished slots' vs hvs
      exact mirrors_applyTo hrecur hcalled.1 hgiven.1 hctx
  | letIn name value body =>
      rw [Expr.nodes, List.cons_subset, List.append_subset] at he
      obtain ⟨-, hvalue, hbody⟩ := he
      rw [step_letIn, step_letIn]
      refine (hrecur hvalue hctx).bind fun slots v hv => ?_
      have hbound := (hkeeps hvalue _ ctx hctx.within rfl).finished slots v hv
      exact hrecur hbody (hctx.bind name hbound.1)
  | branch condition thenSide elseSide =>
      rw [Expr.nodes, List.cons_subset, List.append_subset, List.append_subset] at he
      obtain ⟨-, ⟨hcondition, hthen⟩, helse⟩ := he
      rw [step_branch, step_branch]
      refine (hrecur hcondition hctx).bind fun _ _ _ => ?_
      refine (mirrors_located _).bind fun _ taken _ => mirrors_nextSlot.bind fun _ _ _ => ?_
      have hside : (if taken.value then thenSide else elseSide).nodes ⊆ nodes := by
        split
        · exact hthen
        · exact helse
      exact (hrecur hside (hctx.nest _)).inside.bind fun _ _ _ => mirrors_record_return _
  | rep init name update =>
      rw [Expr.nodes, List.cons_subset, List.append_subset] at he
      obtain ⟨-, hinit, hupdate⟩ := he
      rw [step_rep, step_rep]
      refine mirrors_nextSlot.bind fun _ _ _ => ?_
      exact (mirrors_repAt hrecur (hctx.nest _) name hinit hupdate).bind fun _ _ _ =>
        mirrors_record_return _
  | nbr body =>
      rw [step_nbr, step_nbr, hctx.telling.focus]
      exact mirrors_nextSlot.bind fun _ _ _ => mirrors_nbrAt (hctx.telling.nest _) body
  | neighborFold default accumulator generator includeSelf =>
      have hfold := hfolds _ (he (Expr.self_mem_nodes _))
      cases hfold

omit hkeeps hrecur

theorem eval_mirrorsOn (hfolds : ∀ node ∈ nodes, node.isFold = false) (depth : Nat) :
    MirrorsOn nodes id exported (eval depth) := by
  induction depth with
  | zero => exact fun _ _ => mirrors_fail
  | succ depth ih => exact mirrors_step (eval_keepsWithin depth) ih hfolds

end Node

/-! ## Folds -/

section Fold

variable {recur : Expr → Context → Eval Value} {ctx : Context} {slots : Nat}
  {initial combine own : Value} {generator : Expr} {includeSelf : Bool}

/-- What is left of a fold when its default, its accumulator and the device's own contribution have
their values. -/
def foldRest (recur : Expr → Context → Eval Value) (ctx : Context) (initial combine own : Value)
    (generator : Expr) (includeSelf : Bool) : Eval Value := do
  let start ← foldStart recur ctx combine initial own includeSelf
  let result ← foldNeighbors recur generator combine ctx ctx.alignedNeighbors start
  record ctx result
  return result

theorem foldRest_alone (haligned : ctx.alignedNeighbors = []) :
    foldRest recur ctx initial combine own generator includeSelf = (do
      let start ← foldStart recur ctx combine initial own includeSelf
      record ctx start
      return start) := by
  rw [foldRest, haligned]
  refine bind_congr (m := Eval) fun start => ?_
  rw [foldNeighbors, pure_bind]

/-- A single neighbor that tells what the device itself would is combined as the device would be. -/
theorem foldRest_mirrored {id : DeviceId} {exported : Export} {opened : Nat}
    (haligned : ctx.alignedNeighbors = [(id, exported)])
    (hasked : recur generator (ctx.toSelf.focusedOn id exported) 0 = .ok ⟨own, opened, []⟩) :
    foldRest recur ctx initial combine own generator false slots = (do
      let start ← foldStart recur ctx combine initial own true
      record ctx start
      return start : Eval Value) slots := by
  have hheard : foldNeighbors recur generator combine ctx [(id, exported)] initial slots =
      foldStart recur ctx combine initial own true slots := by
    rw [foldNeighbors_cons, bind_run (present?_of_ok (inside_of_ok hasked slots))]
    dsimp only
    rw [foldStart, if_pos rfl]
    simp only [foldNeighbors, Bind.bind]
    cases inside (applyTo recur combine [initial, own] ctx.silent) slots with
    | error interrupt => rfl
    | ok y => simp [Except.map, pure_run]
  rw [foldRest, haligned, foldStart, if_neg Bool.false_ne_true, pure_bind]
  simp only [Bind.bind, hheard]

theorem eval_neighborFold_run {depth : Nat} {default accumulator : Expr}
    {initial combine own : Yield Value} (hinitial : eval depth default ctx slots = .ok initial)
    (hcombine : eval depth accumulator ctx initial.slots = .ok combine)
    (hown : eval depth generator (ctx.nest (.foldHood (UInt32.ofNat combine.slots))).toSelf 0 =
      .ok own) :
    eval (depth + 1) (.neighborFold default accumulator generator includeSelf) ctx slots =
      (foldRest (eval depth) (ctx.nest (.foldHood (UInt32.ofNat combine.slots))) initial.value
        combine.value own.value generator includeSelf (combine.slots + 1)).map fun w =>
          ⟨w.value, w.slots, initial.puts ++ (combine.puts ++ (own.puts ++ w.puts))⟩ := by
  change step (eval depth) _ ctx slots = _
  rw [step_neighborFold, bind_run hinitial, bind_run hcombine, bind_run (nextSlot_run _), fold_eq,
    bind_run (inside_of_ok hown _), ← foldRest]
  cases foldRest (eval depth) (ctx.nest (.foldHood (UInt32.ofNat combine.slots))) initial.value
    combine.value own.value generator includeSelf (combine.slots + 1) <;> rfl

end Fold

/-! ## The neighbor in the same situation -/

/-- Levels with no more than `2 ^ 32` slots lose no entry: all that is recorded is exported. -/
theorem found_of_levelsBelow {program : Expr} {ctx : Context} {y : Yield Value}
    (hlevels : LevelsBelow (UInt32.size + 1) program ctx)
    (h : eval depthLimit program ctx 0 = .ok y) :
    ∀ put ∈ y.puts, (Export.ofPuts y.puts y.value).get? put.1 = some put.2 := by
  have hbranching := hlevels.branching (Nat.le_refl _) h
  intro put hput
  obtain ⟨_, slot, rest, -, -, -, hpath⟩ := hbranching.opened put hput
  have hroot : put.1 ≠ Path.root := by
    rw [hpath]
    exact List.append_ne_nil_of_right_ne_nil _ (List.cons_ne_nil _ _)
  rw [Export.get?_ofPuts, if_neg hroot]
  refine Dict.find?_ofList_of_mem hput ?_
  intro other hother
  have hsame := List.inj_on_of_nodup_map hbranching.distinct hother hput rfl
  exact congrArg Prod.snd hsame

/-- A fold without neighbors, and without the device itself, is its default. -/
theorem foldPlus_alone {depth slots : Nat} {ctx : Context} {default accumulator generator : Expr}
    {y : Yield Value} (hlonely : ctx.inputs.neighbors = .empty) (hrecording : ctx.recording = true)
    (h : eval (depth + 1) (.foldPlus default accumulator generator) ctx slots = .ok y) :
    ∃ initial combine own, eval depth default ctx slots = .ok initial ∧
      eval depth accumulator ctx initial.slots = .ok combine ∧
      eval depth generator (ctx.nest (.foldHood (UInt32.ofNat combine.slots))).toSelf 0 =
        .ok own ∧
      y = ⟨initial.value, combine.slots + 1, initial.puts ++ (combine.puts ++ (own.puts ++
        [(ctx.path.push (.foldHood (UInt32.ofNat combine.slots)), initial.value)]))⟩ := by
  obtain ⟨initial, combine, own, hinitial, hcombine, hown, -⟩ := puts_neighborFold h
  refine ⟨initial, combine, own, hinitial, hcombine, hown, ?_⟩
  have haligned : (ctx.nest (.foldHood (UInt32.ofNat combine.slots))).alignedNeighbors = [] :=
    Context.alignedNeighbors_empty hlonely
  rw [Expr.foldPlus, eval_neighborFold_run hinitial hcombine hown, foldRest_alone haligned,
    foldStart, if_neg Bool.false_ne_true, pure_bind, bind_run (record_run _ _ _), pure_run] at h
  have hrecorded : (ctx.nest (.foldHood (UInt32.ofNat combine.slots))).recording = true :=
    hrecording
  rw [hrecorded] at h
  cases h
  rfl

/-- If the one neighbor holds what the device tells itself, the fold that leaves the device out
comes to the same as the one that counts it, without the neighbor. -/
theorem foldPlus_hearing {nodes : List Expr} {ctx : Context} {depth slots : Nat}
    {default accumulator generator : Expr} {initial combine own : Yield Value} {id : DeviceId}
    {exported : Export} (hfolds : ∀ node ∈ nodes, node.isFold = false)
    (hctx : ctx.Mirrored nodes id) (hlonely : ctx.inputs.neighbors = .empty)
    (hid : id ≠ ctx.inputs.device) (hdefault : default.nodes ⊆ nodes)
    (haccumulator : accumulator.nodes ⊆ nodes) (hgenerator : generator.nodes ⊆ nodes)
    (hinitial : eval depth default ctx slots = .ok initial)
    (hcombine : eval depth accumulator ctx initial.slots = .ok combine)
    (hown : eval depth generator (ctx.nest (.foldHood (UInt32.ofNat combine.slots))).toSelf 0 =
      .ok own)
    (hexported : exported.All (Value.Within nodes))
    (haligned : exported.contains (ctx.path.push (.foldHood (UInt32.ofNat combine.slots))))
    (hfound : ∀ put ∈ own.puts, exported.get? put.1 = some put.2) :
    eval (depth + 1) (.foldPlus default accumulator generator)
        (ctx.hearing (Dict.empty.insert id exported)) slots =
      eval (depth + 1) (.fold default accumulator generator) ctx slots := by
  let inner := ctx.nest (.foldHood (UInt32.ofNat combine.slots))
  have hinner : inner.Mirrored nodes id := hctx.nest _
  have hsame : Unheard nodes (Dict.empty.insert id exported) (eval depth) :=
    eval_unheard hfolds depth
  have hinitial' := (congrFun (hsame hdefault hctx.within) slots).trans hinitial
  have hcombine' := (congrFun (hsame haccumulator hctx.within) initial.slots).trans hcombine
  have hown' := (congrFun (hsame hgenerator hinner.within.toSelf) 0).trans hown
  -- without neighbors there is nobody to ask, ...
  have hnobody : inner.alignedNeighbors = [] := Context.alignedNeighbors_empty hlonely
  have honly : (inner.hearing (Dict.empty.insert id exported)).alignedNeighbors =
      [(id, exported)] := Context.alignedNeighbors_single rfl hid haligned
  -- ... and the neighbor, if asked, tells what the device does.
  have hasked : eval depth generator
      ((inner.hearing (Dict.empty.insert id exported)).toSelf.focusedOn id exported) 0 =
        .ok ⟨own.value, own.slots, []⟩ := by
    have hmirrored : inner.toSelf.Mirrored nodes id :=
      ⟨hinner.within.toSelf, hinner.telling.toSelf, hinner.reads⟩
    have hread := eval_mirrorsOn hfolds depth hgenerator hmirrored 0 own hown hfound
    exact (congrFun (hsame hgenerator (hinner.within.toSelf.focusedOn id hexported)) 0).trans hread
  have hstart : foldStart (eval depth) (inner.hearing (Dict.empty.insert id exported))
      combine.value initial.value own.value true =
        foldStart (eval depth) inner combine.value initial.value own.value true := by
    have hargs : ∀ v ∈ [initial.value, own.value], v.Within nodes := by
      simp [(within_of_eval hdefault hctx.within hinitial).1,
        (within_of_eval hgenerator hinner.within.toSelf hown).1]
    exact congrArg inside (unheard_applyTo hsame
      (within_of_eval haccumulator hctx.within hcombine).1 hargs hinner.within.silent)
  rw [Expr.foldPlus, Expr.fold, eval_neighborFold_run hinitial' hcombine' hown',
    eval_neighborFold_run hinitial hcombine hown]
  refine congrArg _ ((foldRest_mirrored honly hasked).trans ?_)
  rw [foldRest_alone hnobody, hstart]
  rfl

end Eval

/-- Data holds no nodes. -/
theorem RoundInputs.all_within_of_isData {inputs : RoundInputs} (nodes : List Expr)
    (hsensors : inputs.sensors.All fun v => v.isData) (hstate : inputs.state.All fun v => v.isData)
    (hlonely : inputs.neighbors = .empty) : inputs.All (Value.Within nodes) := by
  refine ⟨⟨?_, ?_⟩, ?_, ?_⟩
  · exact fun name v hv => .of_isData (hsensors.own name v hv)
  · exact fun name id v hv => .of_isData (hsensors.relative name id v hv)
  · exact fun path v hv => .of_isData (hstate path v hv)
  · intro id exported hfound
    rw [hlonely] at hfound
    cases hfound

/-- A neighbor in the same situation contributes what the device itself would. Suppose that neither
the parts of a fold nor the functions in their literals fold, and that readings and remembered
values are data. If a device without neighbors comes to a result of the fold that leaves itself
out, with no more than `2 ^ 32` slots at any level, so that slots do not share their numbers, and if
it hears what it exports then from another device, relative to which its readings are as those
relative to itself, it comes to the same value and export, or to the same error, as without
neighbors in the fold that counts itself. -/
theorem neighbor_mirrors_self (d a g : Expr)
    (hfolds : ∀ node ∈ d.nodes ++ a.nodes ++ g.nodes, node.isFold = false)
    (x : DeviceId) (sensors : Sensors) (state : DeviceState)
    (hsensors : sensors.All fun v => v.isData) (hstate : state.All fun v => v.isData)
    (hlevels : Eval.LevelsBelow (UInt32.size + 1) (.foldPlus d a g)
      (.root ⟨x, sensors, state, .empty⟩))
    (n : DeviceId) (hn : n ≠ x)
    (hreads : ∀ name, sensors.neighborSense name n = sensors.neighborSense name x)
    (alone : Evaluation)
    (halone : evaluate (.foldPlus d a g) ⟨x, sensors, state, .empty⟩ = .ok alone) :
    evaluate (.foldPlus d a g) ⟨x, sensors, state, Dict.empty.insert n alone.exported⟩ =
      evaluate (.fold d a g) ⟨x, sensors, state, .empty⟩ := by
  let inputs : RoundInputs := ⟨x, sensors, state, .empty⟩
  let parts := d.nodes ++ a.nodes ++ g.nodes
  have hd : d.nodes ⊆ parts := fun _ h => List.mem_append_left _ (List.mem_append_left _ h)
  have ha : a.nodes ⊆ parts := fun _ h => List.mem_append_left _ (List.mem_append_right _ h)
  have hg : g.nodes ⊆ parts := fun _ h => List.mem_append_right _ h
  have hroot : (Context.root inputs).All (Value.Within parts) :=
    .root (RoundInputs.all_within_of_isData parts hsensors hstate rfl)
  obtain ⟨y, heval, rfl⟩ := exists_yield_of_evaluateIn halone
  have hfound := Eval.found_of_levelsBelow hlevels heval
  change Eval.eval ((depthLimit - 1) + 1) _ _ 0 = _ at heval
  obtain ⟨initial, combine, own, hinitial, hcombine, hown, rfl⟩ :=
    Eval.foldPlus_alone rfl rfl heval
  obtain ⟨hvalue, hputs⟩ := Eval.within_of_eval hd hroot hinitial
  obtain ⟨-, hputs'⟩ := Eval.within_of_eval ha hroot hcombine
  obtain ⟨-, hputs''⟩ := Eval.within_of_eval hg (hroot.nest _).toSelf hown
  simp only [List.forall_mem_append, List.forall_mem_singleton] at hfound
  obtain ⟨-, -, hown', hfold⟩ := hfound
  have hexported : (Export.ofPuts (initial.puts ++ (combine.puts ++ (own.puts ++
      [((Context.root inputs).path.push (.foldHood (UInt32.ofNat combine.slots)),
        initial.value)]))) initial.value).All (Value.Within parts) := by
    refine Export.all_ofPuts ?_ hvalue
    simp only [List.forall_mem_append, List.forall_mem_singleton]
    exact ⟨hputs, hputs', hputs'', hvalue⟩
  exact evaluateIn_congr (Eval.foldPlus_hearing hfolds ⟨hroot, ⟨rfl, rfl⟩, hreads⟩ rfl hn hd ha hg
    hinitial hcombine hown hexported (Option.isSome_of_eq_some hfold) hown')

/-- A branch on what is told, and on its side a function that tells and a relative reading. -/
def toldInBranch : Expr :=
  .letIn "far" (.lambda ⟨"far"⟩ ["k"] (.nbr (.call .tuple [.var "k", .selfId])))
    (.branch (.nbr (.sense "flag"))
      (.call .tuple [.neighborSense "d", .apply (.var "far") [.literal (.bool true)]])
      (.literal .unit))

/-- Pairs what came before with what is told. -/
def pairing : Expr := .lambda ⟨"pair"⟩ ["x", "y"] (.call .tuple [.var "x", .var "y"])

/-- The same readings relative to any device. -/
def sameEverywhere : Sensors where
  sense name := if name = "flag" then some (.bool true) else none
  neighborSense name _ := if name = "d" then some (.text "near") else none

/-- What `a` exports alone. -/
def toldInBranchAlone : Evaluation :=
  ⟨.unit, .ofPuts
    [([.foldHood 0, .nbr 0], .bool true),
      ([.foldHood 0, .branch 1 true, .funCall 0 ⟨"far"⟩, .nbr 0],
        .tuple [.bool true, .text "a"]),
      ([.foldHood 0, .branch 1 true],
        .tuple [.text "near", .tuple [.bool true, .text "a"]]),
      ([.foldHood 0], .unit)] .unit⟩

/-- The neighbor `b` with what `a` exports is paired with the default as `a` itself would be. -/
theorem toldInBranch_mirrors :
    Eval.LevelsBelow (UInt32.size + 1) (.foldPlus (.literal .unit) pairing toldInBranch)
        (.root ⟨⟨"a"⟩, sameEverywhere, .empty, .empty⟩) ∧
      evaluate (.foldPlus (.literal .unit) pairing toldInBranch)
          ⟨⟨"a"⟩, sameEverywhere, .empty, .empty⟩ = .ok toldInBranchAlone ∧
      evaluate (.foldPlus (.literal .unit) pairing toldInBranch)
          ⟨⟨"a"⟩, sameEverywhere, .empty,
            Dict.empty.insert ⟨"b"⟩ toldInBranchAlone.exported⟩ =
        evaluate (.fold (.literal .unit) pairing toldInBranch)
          ⟨⟨"a"⟩, sameEverywhere, .empty, .empty⟩ := by
  have hlevels : Eval.LevelsBelow (UInt32.size + 1)
      (.foldPlus (.literal .unit) pairing toldInBranch)
      (.root ⟨⟨"a"⟩, sameEverywhere, .empty, .empty⟩) := by cbv
  have halone : evaluate (.foldPlus (.literal .unit) pairing toldInBranch)
      ⟨⟨"a"⟩, sameEverywhere, .empty, .empty⟩ = .ok toldInBranchAlone := by cbv
  refine ⟨hlevels, halone, ?_⟩
  refine neighbor_mirrors_self (.literal .unit) pairing toldInBranch (by decide) ⟨"a"⟩
    sameEverywhere .empty ⟨?_, ?_⟩ ?_ hlevels ⟨"b"⟩ (by decide) (fun _ => rfl) toldInBranchAlone
    halone
  · intro name v hv
    obtain ⟨-, hdata⟩ := Option.ite_none_right_eq_some.mp hv
    cases hdata
    rfl
  · intro name id v hv
    obtain ⟨-, hdata⟩ := Option.ite_none_right_eq_some.mp hv
    cases hdata
    rfl
  · intro path v hv
    cases hv

/-! ## What each condition is for -/

/-- In rounds of a fold with these parts a neighbor contributes what the device itself would, if
readings relative to it are like those relative to the device itself. -/
def Expr.MirrorsSelf (like : Value → Value → Prop) (d a g : Expr) : Prop :=
  ∀ (x : DeviceId) (sensors : Sensors) (state : DeviceState),
    (sensors.All fun v => v.isData) → (state.All fun v => v.isData) → ∀ n ≠ x,
    (∀ name, Option.Rel like (sensors.neighborSense name n) (sensors.neighborSense name x)) →
    ∀ alone, evaluate (.foldPlus d a g) ⟨x, sensors, state, .empty⟩ = .ok alone →
      evaluate (.foldPlus d a g) ⟨x, sensors, state, Dict.empty.insert n alone.exported⟩ =
        evaluate (.fold d a g) ⟨x, sensors, state, .empty⟩

/-- Neither folds nor lambdas occur in the parts of a fold, nor in what their literals hold. -/
def Expr.PlainParts (d a g : Expr) : Prop :=
  ∀ node ∈ d.nodes ++ a.nodes ++ g.nodes, node.isFold = false ∧ node.isLambda = false

section Pairs

open Eval

variable {x n : DeviceId} {sensors : Sensors} {generator : Expr} {own : Yield Value}

/-! A fold that pairs contributions with what came before tells them apart. -/

/-- The position inside of a fold that is the whole program, in a first round. -/
def folding (x : DeviceId) (sensors : Sensors) (neighbors : NeighborSnapshot) : Context :=
  (Context.root ⟨x, sensors, .empty, neighbors⟩).nest (.foldHood 0)

theorem evaluate_pairs {neighbors : NeighborSnapshot} {includeSelf : Bool} {start v : Value}
    (hown : eval (depthLimit - 1) generator (folding x sensors neighbors) 0 = .ok own)
    (hstart : foldStart (eval (depthLimit - 1)) (folding x sensors neighbors) (.builtin .tuple)
      .unit own.value includeSelf 1 = .ok ⟨start, 1, []⟩)
    (hresult : foldNeighbors (eval (depthLimit - 1)) generator (.builtin .tuple)
      (folding x sensors neighbors) (folding x sensors neighbors).alignedNeighbors start 1 =
        .ok ⟨v, 1, []⟩) :
    evaluate (.neighborFold (.literal .unit) (.literal (.builtin .tuple)) generator includeSelf)
      ⟨x, sensors, .empty, neighbors⟩ = .ok ⟨v, .ofPuts (own.puts ++ [([.foldHood 0], v)]) v⟩ := by
  have hrun : eval (depthLimit - 1 + 1)
      (.neighborFold (.literal .unit) (.literal (.builtin .tuple)) generator includeSelf)
      (.root ⟨x, sensors, .empty, neighbors⟩) 0 =
        .ok ⟨v, 1, own.puts ++ [([.foldHood 0], v)]⟩ :=
    eval_neighborFold_ok rfl rfl hown hstart hresult
  have hdepth : depthLimit = depthLimit - 1 + 1 := rfl
  rw [evaluate, evaluateIn, hdepth, hrun]

/-- If a neighbor in the same situation contributes what the device itself would, then reading what
the device has exported gives what the device has told itself. -/
theorem Expr.MirrorsSelf.told_eq {like : Value → Value → Prop}
    (hmirrors : Expr.MirrorsSelf like (.literal .unit) (.literal (.builtin .tuple)) generator)
    (hsensors : sensors.All fun v => v.isData) (hn : n ≠ x)
    (hreads : ∀ name, Option.Rel like (sensors.neighborSense name n) (sensors.neighborSense name x))
    (hown : eval (depthLimit - 1) generator (folding x sensors .empty) 0 = .ok own)
    {exported : Export}
    (hexported : exported = .ofPuts (own.puts ++ [([.foldHood 0], .unit)]) .unit)
    {again : Yield Value} (hagain : eval (depthLimit - 1) generator
      (folding x sensors (Dict.empty.insert n exported)) 0 = .ok again)
    {told : Value} {opened : Nat} (hasked : eval (depthLimit - 1) generator
      ((folding x sensors (Dict.empty.insert n exported)).focusedOn n exported) 0 =
        .ok ⟨told, opened, []⟩) :
    told = own.value := by
  have halone : evaluate (.foldPlus (.literal .unit) (.literal (.builtin .tuple)) generator)
      ⟨x, sensors, .empty, .empty⟩ = .ok ⟨.unit, exported⟩ := by
    rw [hexported]
    exact evaluate_pairs hown rfl rfl
  have hself : evaluate (.fold (.literal .unit) (.literal (.builtin .tuple)) generator)
      ⟨x, sensors, .empty, .empty⟩ = .ok ⟨.tuple [.unit, own.value], _⟩ :=
    evaluate_pairs hown rfl rfl
  have hcombined : foldNeighbors (eval (depthLimit - 1)) generator (.builtin .tuple)
      (folding x sensors (Dict.empty.insert n exported))
      (folding x sensors (Dict.empty.insert n exported)).alignedNeighbors .unit 1 =
        .ok ⟨.tuple [.unit, told], 1, []⟩ := by
    have haligned : exported.contains [.foldHood 0] := by
      rw [hexported, Export.contains_ofPuts]
      simp
    have hanswer := present?_of_ok (inside_of_ok hasked 1)
    rw [Context.alignedNeighbors_single rfl hn haligned, foldNeighbors_cons]
    exact (bind_run hanswer).trans rfl
  have hheard : evaluate (.foldPlus (.literal .unit) (.literal (.builtin .tuple)) generator)
      ⟨x, sensors, .empty, Dict.empty.insert n exported⟩ = .ok ⟨.tuple [.unit, told], _⟩ :=
    evaluate_pairs hagain rfl hcombined
  have hsame := hmirrors x sensors .empty hsensors nofun n hn hreads _ halone
  rw [hheard, hself, Except.ok.injEq] at hsame
  cases congrArg Evaluation.value hsame
  rfl

end Pairs

/-- Whether a reading comes before zero in the order of all numbers. -/
def beforeZero : Expr := .call .lt [.neighborSense "d", .literal (.number .zero)]

/-- Readings that are equal, but of which only the one relative to `a` is zero itself. -/
def nearZero : Sensors where
  sense _ := none
  neighborSense name id :=
    if name = "d" then some (.number (if id = ⟨"a"⟩ then .zero else .negativeZero)) else none

theorem beforeZero_not_mirrored :
    ¬Expr.MirrorsSelf (fun v w => v.equals w) (.literal .unit) (.literal (.builtin .tuple))
      beforeZero := by
  intro hmirrors
  have hsensors : nearZero.All fun v => v.isData := by
    refine ⟨nofun, ?_⟩
    intro name id v hv
    obtain ⟨-, hdata⟩ := Option.ite_none_right_eq_some.mp hv
    cases hdata
    rfl
  have hreads : ∀ name, Option.Rel (fun v w => v.equals w) (nearZero.neighborSense name ⟨"b"⟩)
      (nearZero.neighborSense name ⟨"a"⟩) := by
    intro name
    by_cases hname : name = "d"
    · subst hname
      exact .some (by decide)
    · have hnone : ∀ id, nearZero.neighborSense name id = none := fun _ => if_neg hname
      rw [hnone, hnone]
      exact .none
  have hown : ∀ neighbors, Eval.eval (depthLimit - 1) beforeZero
      (folding ⟨"a"⟩ nearZero neighbors) 0 = .ok ⟨.bool false, 0, []⟩ := fun _ => by cbv
  have hasked : ∀ exported, Eval.eval (depthLimit - 1) beforeZero
      ((folding ⟨"a"⟩ nearZero (Dict.empty.insert ⟨"b"⟩ exported)).focusedOn ⟨"b"⟩ exported) 0 =
        .ok ⟨.bool true, 0, []⟩ := fun _ => by cbv
  cases hmirrors.told_eq hsensors (by decide) hreads (hown _) rfl (hown _) (hasked _)

theorem beforeZero_plain :
    Expr.PlainParts (.literal .unit) (.literal (.builtin .tuple)) beforeZero := by
  unfold Expr.PlainParts
  decide

/-- Opens a slot and tells nothing in it. -/
def filler : Expr := .branch (.literal (.bool true)) (.literal .unit) (.literal .unit)

/-- Tells one thing in its first slot and another in its last, with `fillers` slots between. -/
def tellsTwice (fillers : Nat) : Expr :=
  .call .tuple (.nbr (.literal (.bool true)) ::
    (List.replicate fillers filler ++ [.nbr (.literal (.bool false))]))

namespace Eval

variable {depth fillers : Nat} {ctx : Context}

theorem eval_tellsTwice_ok {v w : Value} {first last : List (Path × Value)}
    (hfirst : eval (depth + 4) (.nbr (.literal (.bool true))) ctx 0 = .ok ⟨v, 1, first⟩)
    (hlast : eval (depth + 4) (.nbr (.literal (.bool false))) ctx (fillers + 1) =
      .ok ⟨w, fillers + 2, last⟩) :
    ∃ rest puts, eval (depth + 5) (tellsTwice fillers) ctx 0 =
        .ok ⟨.tuple (v :: rest), fillers + 2, first ++ (puts ++ last)⟩ ∧
      ∀ put ∈ puts, ctx.recording = true := by
  have hfiller : ∀ slots, ∃ puts, eval (depth + 4) filler ctx slots =
      .ok ⟨.unit, slots + 1, puts⟩ ∧ ∀ put ∈ puts, ctx.recording = true := by
    intro slots
    have hcondition : eval (depth + 3) (.literal (.bool true)) ctx slots =
        .ok ⟨.bool true, slots, []⟩ := rfl
    have hrun := eval_branch_run (.literal .unit) (.literal .unit) hcondition rfl
    refine ⟨_, hrun, ?_⟩
    intro put hput
    by_contra hsilent
    simp [hsilent] at hput
  obtain ⟨puts, hfillers, hputs⟩ := evalAll_replicate_ok hfiller fillers 1
  rw [Nat.add_comm 1 fillers] at hfillers
  have hargs := evalAll_cons_ok hfirst (evalAll_append_ok hfillers (evalAll_singleton_ok hlast))
  exact ⟨_, puts, eval_call_ok hargs rfl, hputs⟩

/-- If there are as many slots between them as there are numbers, the last thing that a device tells
takes the place of the first. -/
theorem eval_tellsTwice_self (htelling : ctx.Telling)
    (hwraps : UInt32.ofNat (fillers + 1) = 0) :
    ∃ rest puts, eval (depth + 5) (tellsTwice fillers) ctx 0 =
      .ok ⟨.tuple (.bool true :: rest), fillers + 2,
        puts ++ [(ctx.path.push (.nbr 0), .bool false)]⟩ := by
  have htold : ∀ value slots, eval (depth + 4) (.nbr (.literal (.bool value))) ctx slots =
      .ok ⟨.bool value, slots + 1, [(ctx.path.push (.nbr (UInt32.ofNat slots)), .bool value)]⟩ := by
    intro value slots
    have hbody : eval (depth + 3) (.literal (.bool value))
        (ctx.nest (.nbr (UInt32.ofNat slots))) 0 = .ok ⟨.bool value, 0, []⟩ := rfl
    rw [eval_nbr_self_ok htelling.focus hbody, htelling.recording]
    rfl
  have hlast := htold false (fillers + 1)
  rw [hwraps] at hlast
  obtain ⟨rest, puts, hall, -⟩ := eval_tellsTwice_ok (htold true 0) hlast
  rw [← List.append_assoc] at hall
  exact ⟨rest, _, hall⟩

theorem eval_tellsTwice_neighbor {id : DeviceId} {exported : Export} {v : Value}
    (hwraps : UInt32.ofNat (fillers + 1) = 0)
    (hheard : exported.get? (ctx.path.push (.nbr 0)) = some v) :
    ∃ rest, eval (depth + 5) (tellsTwice fillers) (ctx.focusedOn id exported) 0 =
      .ok ⟨.tuple (v :: rest), fillers + 2, []⟩ := by
  have hfirst : eval (depth + 4) (.nbr (.literal (.bool true))) (ctx.focusedOn id exported) 0 =
      .ok ⟨v, 1, []⟩ := eval_nbr_neighbor_ok rfl hheard
  have hlast : eval (depth + 4) (.nbr (.literal (.bool false))) (ctx.focusedOn id exported)
      (fillers + 1) = .ok ⟨v, fillers + 2, []⟩ := by
    refine eval_nbr_neighbor_ok rfl ?_
    rw [hwraps]
    exact hheard
  obtain ⟨rest, puts, hall, hputs⟩ := eval_tellsTwice_ok hfirst hlast
  have hsilent : puts = [] := List.eq_nil_iff_forall_not_mem.mpr fun put hput => by
    cases hputs put hput
  rw [hsilent] at hall
  exact ⟨rest, hall⟩

end Eval

/-- The neighbor tells twice what the device has told last. -/
theorem tellsTwice_not_mirrored {fillers : Nat} (hwraps : UInt32.ofNat (fillers + 1) = 0) :
    ¬Expr.MirrorsSelf Eq (.literal .unit) (.literal (.builtin .tuple)) (tellsTwice fillers) := by
  intro hmirrors
  let sensors : Sensors := ⟨fun _ => none, fun _ _ => none⟩
  have hsensors : sensors.All fun v => v.isData := by
    refine ⟨?_, ?_⟩
    · intro name v hv
      cases hv
    · intro name id v hv
      cases hv
  have hdepth : depthLimit - 1 = 1048570 + 5 := rfl
  have hown : ∀ neighbors, ∃ rest puts, Eval.eval (depthLimit - 1) (tellsTwice fillers)
      (folding ⟨"a"⟩ sensors neighbors) 0 = .ok ⟨.tuple (.bool true :: rest), fillers + 2,
        puts ++ [([.foldHood 0, .nbr 0], .bool false)]⟩ := by
    intro neighbors
    rw [hdepth]
    exact Eval.eval_tellsTwice_self ⟨rfl, rfl⟩ hwraps
  obtain ⟨rest, puts, halone⟩ := hown .empty
  generalize hexported : Export.ofPuts (puts ++ [([.foldHood 0, .nbr 0], .bool false)] ++
    [([.foldHood 0], .unit)]) .unit = exported
  have hheard : exported.get? [.foldHood 0, .nbr 0] = some (.bool false) := by
    rw [← hexported, Export.get?_ofPuts, if_neg (by decide), Dict.ofList_concat, Dict.find?_insert,
      if_neg (by decide), Dict.ofList_concat, Dict.find?_insert, if_pos rfl]
  obtain ⟨_, _, hagain⟩ := hown (Dict.empty.insert ⟨"b"⟩ exported)
  obtain ⟨rest', hasked⟩ : ∃ rest', Eval.eval (depthLimit - 1) (tellsTwice fillers)
      ((folding ⟨"a"⟩ sensors (Dict.empty.insert ⟨"b"⟩ exported)).focusedOn ⟨"b"⟩ exported) 0 =
        .ok ⟨.tuple (.bool false :: rest'), fillers + 2, []⟩ := by
    rw [hdepth]
    exact Eval.eval_tellsTwice_neighbor hwraps hheard
  cases hmirrors.told_eq hsensors (by decide) (fun _ => .none) halone hexported.symm hagain
    hasked

theorem tellsTwice_plain (fillers : Nat) :
    Expr.PlainParts (.literal .unit) (.literal (.builtin .tuple)) (tellsTwice fillers) := by
  let distinct : List Expr :=
    [.nbr (.literal (.bool true)), filler, .nbr (.literal (.bool false))]
  have hdistinct : ∀ node ∈ Expr.nodesAll distinct,
      node.isFold = false ∧ node.isLambda = false := by decide
  have hitems : Expr.nodesAll (.nbr (.literal (.bool true)) :: (List.replicate fillers filler ++
      [.nbr (.literal (.bool false))])) ⊆ Expr.nodesAll distinct := by
    rw [Expr.nodesAll_subset]
    intro item hitem
    have hmem : item ∈ distinct := by
      simp only [List.mem_cons, List.mem_append, List.mem_replicate, distinct] at hitem ⊢
      tauto
    exact Expr.nodesAll_subset.mp (List.Subset.refl _) item hmem
  intro node hnode
  simp only [tellsTwice, Expr.call, Expr.nodes, Value.nodes, List.mem_append, List.mem_cons,
    List.not_mem_nil, or_false] at hnode
  rcases hnode with (rfl | rfl) | rfl | rfl | hitem
  · exact ⟨rfl, rfl⟩
  · exact ⟨rfl, rfl⟩
  · exact ⟨rfl, rfl⟩
  · exact ⟨rfl, rfl⟩
  · exact hdistinct node (hitems hitem)

/-- Readings that are equal but not the same make a difference, and so do slot numbers that wrap
around. -/
theorem neighbor_not_mirrored :
    (Expr.PlainParts (.literal .unit) (.literal (.builtin .tuple)) beforeZero ∧
      ¬Expr.MirrorsSelf (fun v w => v.equals w) (.literal .unit) (.literal (.builtin .tuple))
        beforeZero) ∧
    Expr.PlainParts (.literal .unit) (.literal (.builtin .tuple)) (tellsTwice (UInt32.size - 1)) ∧
      ¬Expr.MirrorsSelf Eq (.literal .unit) (.literal (.builtin .tuple))
        (tellsTwice (UInt32.size - 1)) :=
  ⟨⟨beforeZero_plain, beforeZero_not_mirrored⟩, tellsTwice_plain _, tellsTwice_not_mirrored rfl⟩

end FieldCalculus
