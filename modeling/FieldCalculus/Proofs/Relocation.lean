import FieldCalculus.Proofs.Locality

/-!
Evaluation does not depend on where it takes place. Moving a position below another path, with
all that the device remembers and all that the neighbors export, moves what is recorded and the
places of errors along and changes nothing else. As an evaluation sees nothing beside its path,
other inputs will do that hold the same below it.
-/

namespace FieldCalculus

/-! ## What an evaluation records -/

namespace Eval

variable {α β : Type} {good : Path × Value → Prop}

/-- All that the computation records is `good`, if it finishes. -/
def Puts (x : Eval α) (good : Path × Value → Prop) : Prop :=
  ∀ slots y, x slots = .ok y → ∀ put ∈ y.puts, good put

namespace Puts

theorem pure (a : α) : (Pure.pure a : Eval α).Puts good := by
  rintro slots _ ⟨⟩ put hput
  cases hput

theorem bind {x : Eval α} {f : α → Eval β} (hx : x.Puts good) (hf : ∀ a, (f a).Puts good) :
    (x >>= f).Puts good := by
  intro slots z hz put hput
  obtain ⟨y, w, hy, hw, rfl⟩ := bind_eq_ok hz
  rcases List.mem_append.mp hput with hfirst | hsecond
  · exact hx slots y hy put hfirst
  · exact hf _ _ w hw put hsecond

theorem mono {x : Eval α} {better : Path × Value → Prop} (hx : x.Puts better)
    (h : ∀ put, better put → good put) : x.Puts good :=
  fun slots y hy put hput => h put (hx slots y hy put hput)

theorem inside {x : Eval α} (hx : x.Puts good) : (inside x).Puts good := by
  intro slots y hy
  obtain ⟨w, hw, rfl⟩ := inside_eq_ok hy
  exact hx 0 w hw

theorem present? {x : Eval α} (hx : x.Puts good) : (present? x).Puts good := by
  intro slots y hy put hput
  rcases present?_eq_ok hy with rfl | ⟨w, hw, rfl⟩
  · cases hput
  · exact hx slots w hw put hput

theorem fail (ctx : Context) (fault : Fault) : (fail ctx fault : Eval α).Puts good := by
  intro slots y hy
  cases hy

theorem absent (path : Path) : (absent path : Eval α).Puts good := by
  intro slots y hy
  cases hy

theorem located (ctx : Context) (result : Except Fault α) : (located ctx result).Puts good := by
  cases result with
  | ok a => exact .pure a
  | error fault => exact .fail ctx fault

theorem nextSlot : nextSlot.Puts good := by
  rintro slots _ ⟨⟩ put hput
  cases hput

theorem record_return {ctx : Context} {value : Value} (h : good (ctx.path, value)) :
    (do record ctx value; return value : Eval Value).Puts good := by
  refine bind ?_ fun _ => .pure _
  rintro slots _ ⟨⟩ put hput
  dsimp only at hput
  split at hput
  · rw [List.mem_singleton.mp hput]
    exact h
  · cases hput

end Puts

/-- An entry strictly below a path. -/
def PutBelow (path : Path) (put : Path × Value) : Prop := Path.Below path put.1

theorem putBelow_slot (path : Path) (slot : Slot) (value : Value) :
    PutBelow path (path.push slot, value) :=
  Path.below_push List.prefix_rfl slot

theorem putBelow_of_push {path : Path} {slot : Slot} {put : Path × Value}
    (h : PutBelow (path.push slot) put) : PutBelow path put :=
  Path.Below.of_prefix h (List.prefix_append _ _)

theorem Puts.of_push {x : Eval α} {path : Path} {slot : Slot}
    (hx : x.Puts (PutBelow (path.push slot))) : x.Puts (PutBelow path) :=
  hx.mono fun _ => putBelow_of_push

section Node

variable {recur : Expr → Context → Eval Value}
  (hrecur : ∀ expr ctx, (recur expr ctx).Puts (PutBelow ctx.path))

include hrecur

theorem evalAll_puts (ctx : Context) (exprs : List Expr) :
    (evalAll recur ctx exprs).Puts (PutBelow ctx.path) := by
  induction exprs with
  | nil => exact .pure _
  | cons expr rest ih => exact (hrecur expr ctx).bind fun _ => ih.bind fun _ => .pure _

theorem applyTo_puts (function : Value) (args : List Value) (ctx : Context) :
    (applyTo recur function args ctx).Puts (PutBelow ctx.path) := by
  cases function with
  | builtin op => exact .located ctx _
  | closure code params body env =>
      rw [applyTo_closure]
      split
      · exact .fail ctx _
      · refine Puts.nextSlot.bind fun index => Puts.inside ?_
        exact (hrecur body _).of_push
  | _ => exact .fail ctx _

theorem foldNeighbors_puts (generator : Expr) (combine : Value) (ctx : Context)
    (neighbors : List (DeviceId × Export)) (acc : Value) :
    (foldNeighbors recur generator combine ctx neighbors acc).Puts (PutBelow ctx.path) := by
  induction neighbors generalizing acc with
  | nil => exact .pure acc
  | cons neighbor rest ih =>
      obtain ⟨id, exported⟩ := neighbor
      rw [foldNeighbors_cons]
      refine (Puts.present? (Puts.inside (hrecur generator _))).bind fun contribution => ?_
      cases contribution with
      | none => exact ih acc
      | some value =>
          exact (Puts.inside (applyTo_puts hrecur combine _ ctx.silent)).bind fun acc => ih acc

theorem fold_puts (initial combine : Value) (generator : Expr) (includeSelf : Bool)
    (ctx : Context) (index : UInt32) :
    (fold recur initial combine generator includeSelf (ctx.nest (.foldHood index))).Puts
      (PutBelow ctx.path) := by
  rw [fold_eq]
  have hown : (inside (recur generator (ctx.nest (.foldHood index)).toSelf)).Puts
      (PutBelow ctx.path) := Puts.inside (hrecur generator _).of_push
  refine hown.bind fun own => ?_
  have hstart : (foldStart recur (ctx.nest (.foldHood index)) combine initial own
      includeSelf).Puts (PutBelow ctx.path) := by
    rw [foldStart]
    split
    · exact Puts.inside (applyTo_puts hrecur combine _ _).of_push
    · exact .pure initial
  refine hstart.bind fun start => ?_
  refine (foldNeighbors_puts hrecur generator combine _ _ start).of_push.bind fun result => ?_
  exact .record_return (putBelow_slot _ _ _)

theorem step_puts (expr : Expr) (ctx : Context) : (step recur expr ctx).Puts (PutBelow ctx.path) := by
  cases expr with
  | literal v => exact .pure v
  | var name => exact .located ctx _
  | sense name => exact .located ctx _
  | neighborSense name => exact .located ctx _
  | selfId => exact .pure _
  | lambda code params body => exact .pure _
  | apply function args =>
      rw [step_apply]
      refine (hrecur function ctx).bind fun f => (evalAll_puts hrecur ctx args).bind fun vs => ?_
      exact applyTo_puts hrecur f vs ctx
  | letIn name value body =>
      rw [step_letIn]
      exact (hrecur value ctx).bind fun v => hrecur body (ctx.bind name v)
  | branch condition thenSide elseSide =>
      rw [step_branch]
      refine (hrecur condition ctx).bind fun c => (Puts.located ctx _).bind fun taken => ?_
      refine Puts.nextSlot.bind fun index => ?_
      refine (Puts.inside (hrecur _ _).of_push).bind fun v => ?_
      exact .record_return (putBelow_slot _ _ v)
  | rep init var update =>
      rw [step_rep]
      refine Puts.nextSlot.bind fun index => ?_
      have hvalue : (repAt recur init var update (ctx.nest (.rep index))).Puts (PutBelow ctx.path) := by
        rw [repAt]
        split
        · exact Puts.inside (hrecur update _).of_push
        · exact Puts.inside (hrecur init _).of_push
      exact hvalue.bind fun v => .record_return (putBelow_slot _ _ v)
  | nbr body =>
      rw [step_nbr]
      refine Puts.nextSlot.bind fun index => ?_
      cases ctx.focus with
      | neighbor id exported =>
          rw [nbrAt]
          split
          · exact .pure _
          · exact .absent _
      | self =>
          rw [nbrAt]
          refine (Puts.inside (hrecur body _).of_push).bind fun v => ?_
          exact .record_return (putBelow_slot _ _ v)
  | neighborFold default accumulator generator includeSelf =>
      rw [step_neighborFold]
      refine (hrecur default ctx).bind fun initial => (hrecur accumulator ctx).bind fun combine => ?_
      refine Puts.nextSlot.bind fun index => ?_
      exact fold_puts hrecur initial combine generator includeSelf ctx index

omit hrecur

end Node

/-- An evaluation records entries only strictly below its own path. -/
theorem eval_puts (depth : Nat) (expr : Expr) (ctx : Context) :
    (eval depth expr ctx).Puts (PutBelow ctx.path) := by
  induction depth generalizing expr ctx with
  | zero => exact .fail ctx _
  | succ depth ih => exact step_puts ih expr ctx

end Eval

/-! ## Positions below another path -/

/-- The entries with each path continued from `base`. -/
def movedEntries (base : Path) (entries : List (Path × Value)) : List (Path × Value) :=
  entries.map fun entry => (base ++ entry.1, entry.2)

/-- Below `base`, moved entries are found where they were. -/
theorem find?_ofList_movedEntries (base : Path) (entries : List (Path × Value)) (path : Path) :
    (Dict.ofList (movedEntries base entries)).find? (base ++ path) =
      (Dict.ofList entries).find? path := by
  have hinjective : Function.Injective fun path : Path => base ++ path :=
    List.append_right_injective base
  exact Dict.find?_ofList_map hinjective entries path

def Export.moved (base : Path) (e : Export) : Export :=
  ⟨Dict.ofList (movedEntries base e.entries.entries)⟩

theorem Export.get?_moved (base : Path) (e : Export) (path : Path) :
    (e.moved base).get? (base ++ path) = e.get? path := by
  refine (find?_ofList_movedEntries base _ path).trans ?_
  rw [Dict.ofList_entries]
  rfl

def DeviceState.moved (base : Path) (state : DeviceState) : DeviceState :=
  ⟨Dict.ofList (movedEntries base state.values.entries)⟩

theorem DeviceState.get?_moved (base : Path) (state : DeviceState) (path : Path) :
    (state.moved base).get? (base ++ path) = state.get? path := by
  refine (find?_ofList_movedEntries base _ path).trans ?_
  rw [Dict.ofList_entries]
  rfl

def RoundInputs.moved (base : Path) (inputs : RoundInputs) : RoundInputs :=
  { inputs with
    state := inputs.state.moved base
    neighbors := inputs.neighbors.map (Export.moved base) }

def Focus.moved (base : Path) : Focus → Focus
  | .self => .self
  | .neighbor id exported => .neighbor id (exported.moved base)

/-- The position with everything around it moved below `base`. -/
def Context.moved (base : Path) (ctx : Context) : Context :=
  { ctx with
    inputs := ctx.inputs.moved base
    path := base ++ ctx.path
    focus := ctx.focus.moved base }

namespace Context

variable (base : Path) (ctx : Context)

theorem moved_nest (slot : Slot) : (ctx.moved base).nest slot = (ctx.nest slot).moved base := by
  have hpath : Path.push (base ++ ctx.path) slot = base ++ Path.push ctx.path slot :=
    List.append_assoc base ctx.path [slot]
  exact congrArg (fun path => Context.mk (ctx.inputs.moved base) path ctx.env
    (ctx.focus.moved base) ctx.recording) hpath

theorem moved_neighborSense (name : String) :
    (ctx.moved base).neighborSense name = ctx.neighborSense name := by
  have htarget : (ctx.moved base).target = ctx.target := by
    unfold target moved
    cases ctx.focus <;> rfl
  rw [neighborSense, htarget, neighborSense]
  rfl

theorem moved_remembered : (ctx.moved base).remembered = ctx.remembered :=
  DeviceState.get?_moved base ctx.inputs.state ctx.path

theorem moved_alignedNeighbors : (ctx.moved base).alignedNeighbors =
    ctx.alignedNeighbors.map fun neighbor => (neighbor.1, neighbor.2.moved base) := by
  have hcontains : ∀ e : Export, (e.moved base).contains (base ++ ctx.path) =
      e.contains ctx.path := fun e => congrArg Option.isSome (e.get?_moved base ctx.path)
  change ((ctx.inputs.neighbors.map (Export.moved base)).entries.filter fun neighbor =>
    neighbor.1 ≠ ctx.inputs.device && neighbor.2.contains (base ++ ctx.path)) = _
  rw [Dict.map, Dict.mapWithKey, List.filter_map, alignedNeighbors]
  congr 2
  funext neighbor
  simp only [Function.comp_apply, hcontains]

end Context

/-! ## Evaluation from a moved position -/

def Interrupt.moved (base : Path) : Interrupt → Interrupt
  | .failed error => .failed ⟨error.fault, base ++ error.path⟩
  | .absent path => .absent (base ++ path)

namespace Eval

/-- The computation with what it records, and the place where it may stop, moved below `base`. -/
def moved {α : Type} (base : Path) (x : Eval α) : Eval α := fun slots =>
  match x slots with
  | .error interrupt => .error (interrupt.moved base)
  | .ok y => .ok { y with puts := movedEntries base y.puts }

section Sequence

variable {α β : Type} (base : Path)

theorem moved_bind (x : Eval α) (f : α → Eval β) :
    (x >>= f).moved base = x.moved base >>= fun a => (f a).moved base := by
  funext slots
  simp only [bind, moved]
  cases x slots with
  | error interrupt => rfl
  | ok y =>
      dsimp only
      cases f y.value y.slots with
      | error interrupt => rfl
      | ok z => simp only [movedEntries, List.map_append]

theorem moved_nextSlot : nextSlot.moved base = nextSlot := rfl

theorem moved_located (ctx : Context) (result : Except Fault α) :
    located (ctx.moved base) result = (located ctx result).moved base := by
  cases result <;> rfl

theorem moved_record (ctx : Context) (value : Value) :
    record (ctx.moved base) value = (record ctx value).moved base := by
  funext slots
  have hrecording : (ctx.moved base).recording = ctx.recording := rfl
  simp only [record, moved, hrecording]
  cases ctx.recording <;> rfl

theorem moved_inside (x : Eval α) : inside (x.moved base) = (inside x).moved base := by
  funext slots
  simp only [inside, moved]
  cases x 0 <;> rfl

theorem moved_present? (x : Eval α) : present? (x.moved base) = (present? x).moved base := by
  funext slots
  simp only [present?, moved]
  cases x slots with
  | ok y => rfl
  | error interrupt => cases interrupt <;> rfl

end Sequence

section Node

variable {base : Path} {recur : Expr → Context → Eval Value}
  (hrecur : ∀ expr ctx, recur expr (ctx.moved base) = (recur expr ctx).moved base)

include hrecur

theorem evalAll_moved (ctx : Context) (exprs : List Expr) :
    evalAll recur (ctx.moved base) exprs = (evalAll recur ctx exprs).moved base := by
  induction exprs with
  | nil => rfl
  | cons expr rest ih =>
      rw [evalAll, evalAll, hrecur, ih, moved_bind]
      refine bind_congr fun v => ?_
      rw [moved_bind]
      rfl

theorem applyTo_moved (function : Value) (args : List Value) (ctx : Context) :
    applyTo recur function args (ctx.moved base) = (applyTo recur function args ctx).moved base := by
  cases function with
  | builtin op => exact moved_located base ctx _
  | closure code params body env =>
      rw [applyTo_closure, applyTo_closure]
      split
      · rfl
      · rw [moved_bind, moved_nextSlot]
        refine bind_congr fun index => ?_
        rw [Context.moved_nest, ← moved_inside, ← hrecur]
        rfl
  | _ => rfl

theorem foldNeighbors_moved (generator : Expr) (combine : Value) (ctx : Context)
    (neighbors : List (DeviceId × Export)) (acc : Value) :
    foldNeighbors recur generator combine (ctx.moved base)
        (neighbors.map fun neighbor => (neighbor.1, neighbor.2.moved base)) acc =
      (foldNeighbors recur generator combine ctx neighbors acc).moved base := by
  induction neighbors generalizing acc with
  | nil => rfl
  | cons neighbor rest ih =>
      obtain ⟨id, exported⟩ := neighbor
      have hfocused : (ctx.moved base).toSelf.focusedOn id (exported.moved base) =
          (ctx.toSelf.focusedOn id exported).moved base := rfl
      rw [List.map_cons, foldNeighbors_cons, foldNeighbors_cons, hfocused, hrecur, moved_inside,
        moved_present?, moved_bind]
      refine bind_congr fun contribution => ?_
      cases contribution with
      | none => exact ih acc
      | some value =>
          have hcombined : applyTo recur combine [acc, value] (ctx.moved base).silent =
              (applyTo recur combine [acc, value] ctx.silent).moved base :=
            applyTo_moved hrecur combine [acc, value] ctx.silent
          dsimp only
          rw [hcombined, moved_inside, moved_bind]
          exact bind_congr fun acc => ih acc

theorem fold_moved (initial combine : Value) (generator : Expr) (includeSelf : Bool)
    (ctx : Context) :
    fold recur initial combine generator includeSelf (ctx.moved base) =
      (fold recur initial combine generator includeSelf ctx).moved base := by
  have hself : (ctx.moved base).toSelf = ctx.toSelf.moved base := rfl
  have hstart : ∀ own, foldStart recur (ctx.moved base) combine initial own includeSelf =
      (foldStart recur ctx combine initial own includeSelf).moved base := by
    intro own
    have hcombined : applyTo recur combine [initial, own] (ctx.moved base).silent =
        (applyTo recur combine [initial, own] ctx.silent).moved base :=
      applyTo_moved hrecur combine [initial, own] ctx.silent
    rw [foldStart, foldStart, hcombined, moved_inside]
    cases includeSelf <;> rfl
  rw [fold_eq, fold_eq, hself, hrecur, moved_inside, moved_bind]
  refine bind_congr fun own => ?_
  rw [hstart, moved_bind]
  refine bind_congr fun start => ?_
  rw [Context.moved_alignedNeighbors, foldNeighbors_moved hrecur, moved_bind]
  refine bind_congr fun result => ?_
  rw [moved_record, moved_bind]
  rfl

theorem nbrAt_moved (body : Expr) (focus : Focus) (inner : Context) :
    nbrAt recur body (focus.moved base) (inner.moved base) =
      (nbrAt recur body focus inner).moved base := by
  cases focus with
  | self =>
      rw [Focus.moved, nbrAt, nbrAt, hrecur, moved_inside, moved_bind]
      refine bind_congr fun v => ?_
      rw [moved_record, moved_bind]
      rfl
  | neighbor id exported =>
      have hvalue : (exported.moved base).get? (inner.moved base).path =
          exported.get? inner.path := exported.get?_moved base inner.path
      rw [Focus.moved, nbrAt, nbrAt, hvalue]
      cases exported.get? inner.path <;> rfl

theorem repAt_moved (init : Expr) (var : String) (update : Expr) (inner : Context) :
    repAt recur init var update (inner.moved base) =
      (repAt recur init var update inner).moved base := by
  rw [repAt, repAt, Context.moved_remembered]
  cases inner.remembered with
  | none =>
      dsimp only
      rw [hrecur, moved_inside]
  | some previous =>
      have hbound : (inner.moved base).bind var previous = (inner.bind var previous).moved base :=
        rfl
      dsimp only
      rw [hbound, hrecur, moved_inside]

theorem step_moved (expr : Expr) (ctx : Context) :
    step recur expr (ctx.moved base) = (step recur expr ctx).moved base := by
  cases expr with
  | literal v => rfl
  | var name => exact moved_located base ctx _
  | sense name => exact moved_located base ctx _
  | neighborSense name =>
      rw [step_neighborSense, Context.moved_neighborSense, moved_located]
      rfl
  | selfId => rfl
  | lambda code params body => rfl
  | apply function args =>
      rw [step_apply, step_apply, hrecur, evalAll_moved hrecur, moved_bind]
      refine bind_congr fun f => ?_
      rw [moved_bind]
      exact bind_congr fun vs => applyTo_moved hrecur f vs ctx
  | letIn name value body =>
      rw [step_letIn, step_letIn, hrecur, moved_bind]
      exact bind_congr fun v => hrecur body (ctx.bind name v)
  | branch condition thenSide elseSide =>
      rw [step_branch, step_branch, hrecur, moved_bind]
      refine bind_congr fun c => ?_
      rw [moved_located, moved_bind]
      refine bind_congr fun taken => ?_
      rw [moved_bind, moved_nextSlot]
      refine bind_congr fun index => ?_
      rw [Context.moved_nest, hrecur, moved_inside, moved_bind]
      refine bind_congr fun v => ?_
      rw [moved_record, moved_bind]
      rfl
  | rep init var update =>
      rw [step_rep, step_rep, moved_bind, moved_nextSlot]
      refine bind_congr fun index => ?_
      rw [Context.moved_nest, repAt_moved hrecur, moved_bind]
      refine bind_congr fun v => ?_
      rw [moved_record, moved_bind]
      rfl
  | nbr body =>
      rw [step_nbr, step_nbr, moved_bind, moved_nextSlot]
      refine bind_congr fun index => ?_
      rw [Context.moved_nest]
      exact nbrAt_moved hrecur body ctx.focus _
  | neighborFold default accumulator generator includeSelf =>
      rw [step_neighborFold, step_neighborFold, hrecur, hrecur, moved_bind]
      refine bind_congr fun initial => ?_
      rw [moved_bind]
      refine bind_congr fun combine => ?_
      rw [moved_bind, moved_nextSlot]
      refine bind_congr fun index => ?_
      rw [Context.moved_nest]
      exact fold_moved hrecur initial combine generator includeSelf _

omit hrecur

/-- Moving a position moves what comes of it. -/
theorem eval_moved (base : Path) (depth : Nat) (expr : Expr) (ctx : Context) :
    eval depth expr (ctx.moved base) = (eval depth expr ctx).moved base := by
  induction depth generalizing expr ctx with
  | zero => rfl
  | succ depth ih => exact step_moved ih expr ctx

end Node

end Eval

/-! ## Inputs that hold the same below a path -/

/-- For the same device, the inputs `there` hold below `base` what the inputs `here` hold
everywhere. Nothing is said of the root of `here`, nor of `there` away from `base`. -/
structure RoundInputs.Carries (base : Path) (there here : RoundInputs) : Prop where
  device : there.device = here.device
  sensors : there.sensors = here.sensors
  remembered : ∀ path ≠ Path.root, there.state.get? (base ++ path) = here.state.get? path
  exported : ∀ id ≠ here.device, ∀ path ≠ Path.root,
    (there.neighbors.exportOf id).get? (base ++ path) = (here.neighbors.exportOf id).get? path

theorem NeighborSnapshot.exportOf_map_moved (base : Path) (snapshot : NeighborSnapshot)
    (id : DeviceId) :
    NeighborSnapshot.exportOf (snapshot.map (Export.moved base)) id =
      (snapshot.exportOf id).moved base := by
  rw [exportOf, exportOf, Dict.find?_map]
  cases snapshot.find? id <;> rfl

theorem Path.exists_of_below {base path : Path} (h : Path.Below base path) :
    ∃ rest ≠ Path.root, path = base ++ rest := by
  obtain ⟨⟨rest, rfl⟩, hne⟩ := h
  refine ⟨rest, ?_, rfl⟩
  rintro rfl
  exact hne (List.append_nil base).symm

/-- Inputs that hold the same below the path cannot be told from the moved ones. -/
theorem RoundInputs.Carries.alike_moved {base : Path} {there here : RoundInputs}
    (h : there.Carries base here) : there.Alike base (here.moved base) := by
  have hexport : ∀ id ≠ there.device, ∀ path, Path.Below base path →
      (there.neighbors.exportOf id).get? path =
        ((here.moved base).neighbors.exportOf id).get? path := by
    intro id hid path hbelow
    obtain ⟨rest, hrest, rfl⟩ := Path.exists_of_below hbelow
    rw [h.exported id (h.device ▸ hid) rest hrest, moved,
      NeighborSnapshot.exportOf_map_moved, Export.get?_moved]
  refine ⟨h.device, h.sensors, ?_, ?_, ?_⟩
  · intro path hbelow _
    obtain ⟨rest, hrest, rfl⟩ := Path.exists_of_below hbelow
    rw [h.remembered rest hrest]
    exact (here.state.get?_moved base rest).symm
  · intro id hid path hbelow _
    exact congrArg Option.isSome (hexport id hid path hbelow)
  · intro id hid path hbelow _
    exact hexport id hid path hbelow

/-- Below `base`, evaluation is that at the root, moved. -/
theorem Eval.eval_of_carries {base : Path} {there here : RoundInputs}
    (h : there.Carries base here) (depth : Nat) (program : Expr) (env : Env) :
    eval depth program { Context.root there with path := base, env := env } =
      (eval depth program ((Context.root here).withEnv env)).moved base := by
  have hpath : base ++ Path.root = base := List.append_nil base
  have halike : { Context.root there with path := base, env := env : Context }.Alike base
      (((Context.root here).withEnv env).moved base) :=
    ⟨h.alike_moved, hpath.symm, List.prefix_rfl, rfl, .self, rfl⟩
  rw [eval_alike depth program halike, eval_moved]

/-- Moved inputs hold below the path what the original ones hold. -/
theorem RoundInputs.carries_moved (base : Path) (here : RoundInputs) :
    (here.moved base).Carries base here where
  device := rfl
  sensors := rfl
  remembered path _ := here.state.get?_moved base path
  exported id _ path _ := by
    rw [moved, NeighborSnapshot.exportOf_map_moved, Export.get?_moved]

/-- What is recorded below `base` and the result at the root are all that the moved export
holds. -/
theorem Export.get?_ofPuts_movedEntries {base path : Path} {puts : List (Path × Value)}
    {root value : Value} (hputs : ∀ put ∈ puts, put.1 ≠ Path.root) :
    (ofPuts (movedEntries base puts) root).get? path = some value ↔
      (path = Path.root ∧ value = root) ∨
        ∃ rest ≠ Path.root, path = base ++ rest ∧ (ofPuts puts root).get? rest = some value := by
  have hmoved : ∀ rest ≠ Path.root, (ofPuts puts root).get? rest =
      (Dict.ofList (movedEntries base puts)).find? (base ++ rest) := by
    intro rest hrest
    rw [get?_ofPuts, if_neg hrest, find?_ofList_movedEntries]
  rw [get?_ofPuts]
  split
  · rename_i hroot
    constructor
    · rintro ⟨⟩
      exact Or.inl ⟨hroot, rfl⟩
    · rintro (⟨-, rfl⟩ | ⟨rest, hrest, hpath, -⟩)
      · rfl
      · exact absurd (List.append_eq_nil_iff.mp (hpath.symm.trans hroot)).2 hrest
  · rename_i hroot
    constructor
    · intro hfound
      obtain ⟨put, hput, heq⟩ := List.mem_map.mp (Dict.mem_of_find?_ofList hfound)
      obtain ⟨rfl, rfl⟩ := Prod.mk.inj heq
      refine Or.inr ⟨put.1, hputs put hput, rfl, ?_⟩
      rw [hmoved put.1 (hputs put hput), hfound]
    · rintro (⟨hpath, -⟩ | ⟨rest, hrest, rfl, hfound⟩)
      · exact absurd hpath hroot
      · rw [← hmoved rest hrest, hfound]

/-- A program that is evaluated below `base`, on inputs that hold there what the original
ones hold, comes to the same value. It exports the original entries below `base` beside the
result at the root, and it fails for the same reason, at the original place below `base`. -/
theorem evaluateIn_relocated (program : Expr) (env : Env) (base : Path)
    (there here : RoundInputs) (hcarries : there.Carries base here) :
    (∀ result, evaluateIn program ((Context.root here).withEnv env) = .ok result →
      ∃ exported, evaluateIn program { Context.root there with path := base, env := env } =
          .ok ⟨result.value, exported⟩ ∧
        ∀ path value, exported.get? path = some value ↔
          (path = Path.root ∧ value = result.value) ∨
            ∃ rest ≠ Path.root, path = base ++ rest ∧
              result.exported.get? rest = some value) ∧
      ∀ error, evaluateIn program ((Context.root here).withEnv env) = .error error →
        evaluateIn program { Context.root there with path := base, env := env } =
          .error ⟨error.fault, base ++ error.path⟩ := by
  have hmoved := Eval.eval_of_carries hcarries depthLimit program env
  have hputs := Eval.eval_puts depthLimit program ((Context.root here).withEnv env) 0
  unfold evaluateIn
  rw [hmoved, Eval.moved]
  cases heval : Eval.eval depthLimit program ((Context.root here).withEnv env) 0 with
  | ok y =>
      have hnonroot : ∀ put ∈ y.puts, put.1 ≠ Path.root := by
        intro put hput hroot
        exact (hputs y heval put hput).2 hroot.symm
      refine ⟨?_, ?_⟩
      · rintro result ⟨⟩
        exact ⟨_, rfl, fun path value => Export.get?_ofPuts_movedEntries hnonroot⟩
      · rintro error ⟨⟩
  | error interrupt =>
      refine ⟨?_, ?_⟩
      · rintro result hresult
        cases interrupt <;> cases hresult
      · intro error herror
        cases interrupt <;> cases herror <;> rfl

/-- Collects the ids around the device into what it remembers. -/
def collectIds : Expr :=
  .rep (.literal .unit) "seen" (.fold (.var "seen") (.literal (.builtin .tuple)) (.nbr .selfId))

/-- A device in its second round, with one neighbor. -/
def secondRound : RoundInputs where
  device := ⟨"a"⟩
  sensors := SensorTable.empty.sensors
  state := ⟨Dict.ofList [([.rep 0], .unit)]⟩
  neighbors := Dict.ofList [(⟨"b"⟩, .ofPuts
    [([.rep 0, .foldHood 0, .nbr 0], .text "b"), ([.rep 0, .foldHood 0], .unit)] .unit)]

/-- Inside a branch the device collects the same ids and exports them there. -/
theorem collectIds_relocated :
    ∃ exported, evaluateIn collectIds
        { Context.root (secondRound.moved [.branch 0 true]) with
          path := [.branch 0 true], env := [] } =
        .ok ⟨.tuple [.tuple [.unit, .text "a"], .text "b"], exported⟩ ∧
      exported.get? [.branch 0 true, .rep 0] =
        some (.tuple [.tuple [.unit, .text "a"], .text "b"]) := by
  have hcarries := secondRound.carries_moved [.branch 0 true]
  obtain ⟨exported, hevaluated, hentries⟩ :=
    (evaluateIn_relocated collectIds [] [.branch 0 true] _ _ hcarries).1 _ rfl
  refine ⟨exported, hevaluated, (hentries _ _).mpr (Or.inr ⟨[.rep 0], ?_, rfl, rfl⟩)⟩
  exact List.cons_ne_nil _ _

end FieldCalculus
