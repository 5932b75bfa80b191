import FieldCalculus.Proofs.Eval
import FieldCalculus.Proofs.Export

/-!
What an evaluation can see of the past and of the neighbors. A program evaluated at a
path reads remembered values only at `rep` slots strictly below it, asks whether a
neighbor has a value only at `foldHood` slots below it, and reads neighbors only at
`nbr` slots below it. Two evaluations that agree on these reads are the same, errors
included.
-/

namespace FieldCalculus

/-- The path extends `base` by at least one slot. -/
def Path.Below (base path : Path) : Prop := base <+: path ∧ base ≠ path

instance (base path : Path) : Decidable (Path.Below base path) :=
  inferInstanceAs (Decidable (_ ∧ _))

theorem Path.not_below_root (base : Path) : ¬Path.Below base Path.root :=
  fun h => h.2 (List.prefix_nil.mp h.1)

theorem Path.below_push {base path : Path} (h : base <+: path) (slot : Slot) :
    Path.Below base (path.push slot) := by
  refine ⟨h.trans (List.prefix_append _ _), ?_⟩
  intro heq
  have hlength := h.length_le
  rw [heq, Path.push, List.length_append, List.length_singleton] at hlength
  omega

/-- What lies below a path lies below those that it extends. -/
theorem Path.Below.of_prefix {base middle path : Path} (h : Path.Below middle path)
    (hbase : base <+: middle) : Path.Below base path := by
  refine ⟨hbase.trans h.1, ?_⟩
  rintro rfl
  exact h.2 (h.1.eq_of_length_le hbase.length_le)

/-- What a snapshot holds of a device; nothing for a device that it does not list. -/
def NeighborSnapshot.exportOf (snapshot : NeighborSnapshot) (id : DeviceId) : Export :=
  (snapshot.find? id).getD default

theorem NeighborSnapshot.exportOf_of_mem {snapshot : NeighborSnapshot} {id : DeviceId}
    {exported : Export} (h : (id, exported) ∈ snapshot.entries) :
    snapshot.exportOf id = exported := by
  rw [exportOf, Dict.find?_eq_some_iff.mpr h]
  rfl

/-- A device takes part at a path when it is listed with a value there; one that is not
listed has none. -/
theorem NeighborSnapshot.mem_keys_filter {snapshot : NeighborSnapshot} {device id : DeviceId}
    {path : Path} :
    id ∈ (snapshot.entries.filter fun (other, exported) =>
        other ≠ device && exported.contains path).map Prod.fst ↔
      id ≠ device ∧ (snapshot.exportOf id).contains path := by
  rw [List.mem_map]
  constructor
  · rintro ⟨⟨other, exported⟩, hmem, rfl⟩
    obtain ⟨hmem, hkeep⟩ := List.mem_filter.mp hmem
    rw [exportOf_of_mem hmem]
    simpa using hkeep
  · rintro ⟨hne, hcontains⟩
    cases hfound : snapshot.find? id with
    | none =>
        rw [exportOf, hfound] at hcontains
        cases hcontains
    | some exported =>
        have hmem := Dict.find?_eq_some_iff.mp hfound
        rw [exportOf_of_mem hmem] at hcontains
        refine ⟨(id, exported), List.mem_filter.mpr ⟨hmem, ?_⟩, rfl⟩
        simp [hne, hcontains]

/-- The two exports hold the same values at `nbr` slots below `base`. -/
def Export.HeardAlike (base : Path) (a b : Export) : Prop :=
  ∀ path, Path.Below base path → Path.endsIn path .nbr → a.get? path = b.get? path

/-- The two exports have values at the same `foldHood` slots below `base`. -/
def Export.AlignedAlike (base : Path) (a b : Export) : Prop :=
  ∀ path, Path.Below base path → Path.endsIn path .foldHood → a.contains path = b.contains path

/-- The inputs of two rounds of one device that no program evaluated at `base` can tell
apart. -/
structure RoundInputs.Alike (base : Path) (a b : RoundInputs) : Prop where
  device : a.device = b.device
  sensors : a.sensors = b.sensors
  remembered : ∀ path, Path.Below base path → Path.endsIn path .rep →
    a.state.get? path = b.state.get? path
  aligned : ∀ id, id ≠ a.device →
    (a.neighbors.exportOf id).AlignedAlike base (b.neighbors.exportOf id)
  heard : ∀ id, id ≠ a.device →
    (a.neighbors.exportOf id).HeardAlike base (b.neighbors.exportOf id)

/-- The same device in focus, with exports that sound alike. -/
inductive Focus.Alike (base : Path) : Focus → Focus → Prop where
  | self : Focus.Alike base .self .self
  | neighbor (id : DeviceId) {a b : Export} (heard : a.HeardAlike base b) :
    Focus.Alike base (.neighbor id a) (.neighbor id b)

/-- The same position in two rounds whose inputs are alike. -/
structure Context.Alike (base : Path) (a b : Context) : Prop where
  inputs : a.inputs.Alike base b.inputs
  path : a.path = b.path
  inside : base <+: a.path
  env : a.env = b.env
  focus : a.focus.Alike base b.focus
  recording : a.recording = b.recording

namespace Context.Alike

variable {base : Path} {a b : Context}

theorem nest (h : a.Alike base b) (slot : Slot) : (a.nest slot).Alike base (b.nest slot) where
  inputs := h.inputs
  path := congrArg (fun path => Path.push path slot) h.path
  inside := (Path.below_push h.inside slot).1
  env := h.env
  focus := h.focus
  recording := h.recording

theorem bind (h : a.Alike base b) (name : String) (value : Value) :
    (a.bind name value).Alike base (b.bind name value) :=
  { h with env := congrArg (Entries.insert name value) h.env }

theorem withEnv (h : a.Alike base b) (env : Env) : (a.withEnv env).Alike base (b.withEnv env) :=
  { h with env := rfl }

theorem toSelf (h : a.Alike base b) : a.toSelf.Alike base b.toSelf :=
  { h with focus := .self }

theorem focusedOn (h : a.Alike base b) (id : DeviceId) {x y : Export}
    (heard : x.HeardAlike base y) : (a.focusedOn id x).Alike base (b.focusedOn id y) :=
  { h with focus := .neighbor id heard, recording := rfl }

theorem silent (h : a.Alike base b) : a.silent.Alike base b.silent :=
  { h with recording := rfl }

theorem target (h : a.Alike base b) : a.target = b.target := by
  have hdevice := h.inputs.device
  have hfocus := h.focus
  unfold Context.target
  generalize a.focus = x at hfocus ⊢
  generalize b.focus = y at hfocus ⊢
  cases hfocus with
  | self => exact hdevice
  | neighbor id _ => rfl

theorem lookup (h : a.Alike base b) (name : String) : a.lookup name = b.lookup name := by
  rw [Context.lookup, Context.lookup, h.env]

theorem sense (h : a.Alike base b) (name : String) : a.sense name = b.sense name := by
  rw [Context.sense, Context.sense, h.inputs.sensors]

theorem neighborSense (h : a.Alike base b) (name : String) :
    a.neighborSense name = b.neighborSense name := by
  rw [Context.neighborSense, Context.neighborSense, h.inputs.sensors, h.target]

/-- Below a `rep` slot the two rounds remember the same value. -/
theorem remembered_rep (h : a.Alike base b) (index : UInt32) :
    (a.nest (.rep index)).remembered = (b.nest (.rep index)).remembered := by
  have hpath : (b.nest (.rep index)).path = (a.nest (.rep index)).path :=
    (h.nest (.rep index)).path.symm
  unfold remembered
  rw [hpath]
  exact h.inputs.remembered _ (Path.below_push h.inside _)
    (by simp [Context.nest, Path.endsIn_push, Slot.kind])

/-- Below a `foldHood` slot the same neighbors take part, in the same order, and what
each of them exports sounds alike. -/
theorem alignedNeighbors_foldHood (h : a.Alike base b) (index : UInt32) :
    List.Forall₂ (fun x y => x.1 = y.1 ∧ x.2.HeardAlike base y.2)
      (a.nest (.foldHood index)).alignedNeighbors (b.nest (.foldHood index)).alignedNeighbors := by
  have hinputs := (h.nest (.foldHood index)).inputs
  have hpath : (b.nest (.foldHood index)).path = (a.nest (.foldHood index)).path :=
    (h.nest (.foldHood index)).path.symm
  have hbelow : Path.Below base (a.nest (.foldHood index)).path :=
    Path.below_push h.inside _
  have hends : Path.endsIn (a.nest (.foldHood index)).path .foldHood := by
    simp [Context.nest, Path.endsIn_push, Slot.kind]
  unfold alignedNeighbors
  rw [hpath]
  generalize (a.nest (.foldHood index)).path = path at hbelow hends
  apply Entries.forall₂_of_keys_eq
  · refine Entries.Ordered.keys_ext (a.inputs.neighbors.ordered.filter _)
      (b.inputs.neighbors.ordered.filter _) ?_
    intro id
    rw [NeighborSnapshot.mem_keys_filter, NeighborSnapshot.mem_keys_filter, ← hinputs.device]
    refine and_congr_right ?_
    intro hne
    rw [hinputs.aligned id hne path hbelow hends]
  · intro id x y hx hy
    obtain ⟨hx, hkeep⟩ := List.mem_filter.mp hx
    obtain ⟨hy, -⟩ := List.mem_filter.mp hy
    rw [← NeighborSnapshot.exportOf_of_mem hx, ← NeighborSnapshot.exportOf_of_mem hy]
    apply hinputs.heard
    simp only [Bool.and_eq_true, decide_eq_true_eq] at hkeep
    exact hkeep.1

end Context.Alike

/-! ## Evaluation from positions that are alike

The parts of a node are evaluated by `recur`. As long as `recur` does not tell positions
that are alike apart, no node does. -/

namespace Eval

variable {base : Path} {a b : Context} {recur : Expr → Context → Eval Value}

theorem fail_alike {α : Type} (h : a.Alike base b) (fault : Fault) :
    (fail a fault : Eval α) = fail b fault := by
  unfold fail
  rw [h.path]

theorem located_alike {α : Type} (h : a.Alike base b) (result : Except Fault α) :
    located a result = located b result := by
  cases result with
  | ok value => rfl
  | error fault => exact fail_alike h fault

theorem record_alike (h : a.Alike base b) (value : Value) : record a value = record b value := by
  unfold record
  rw [h.path, h.recording]

variable (hrecur : ∀ (expr : Expr) {a b : Context}, a.Alike base b → recur expr a = recur expr b)

include hrecur

theorem evalAll_alike (h : a.Alike base b) (exprs : List Expr) :
    evalAll recur a exprs = evalAll recur b exprs := by
  induction exprs with
  | nil => rfl
  | cons expr rest ih => rw [evalAll, evalAll, hrecur _ h, ih]

theorem applyTo_alike (h : a.Alike base b) (function : Value) (args : List Value) :
    applyTo recur function args a = applyTo recur function args b := by
  cases function with
  | closure code params body env =>
      rw [applyTo_closure, applyTo_closure, fail_alike h]
      congr 1
      refine bind_congr ?_
      intro index
      rw [hrecur _ ((h.nest _).withEnv _)]
  | builtin op => exact located_alike h _
  | _ => exact fail_alike h _

/-- Neighbors that sound alike contribute the same. -/
theorem foldNeighbors_alike (h : a.Alike base b) (generator : Expr) (combine : Value)
    {xs ys : List (DeviceId × Export)}
    (hneighbors : List.Forall₂ (fun x y => x.1 = y.1 ∧ x.2.HeardAlike base y.2) xs ys)
    (acc : Value) :
    foldNeighbors recur generator combine a xs acc =
      foldNeighbors recur generator combine b ys acc := by
  induction hneighbors generalizing acc with
  | nil => rfl
  | @cons x y xs ys hxy _ ih =>
      obtain ⟨id, exported⟩ := x
      obtain ⟨id', exported'⟩ := y
      obtain ⟨rfl, hheard⟩ := hxy
      rw [foldNeighbors_cons, foldNeighbors_cons, hrecur _ (h.toSelf.focusedOn id hheard)]
      refine bind_congr ?_
      intro contribution
      cases contribution with
      | none => exact ih acc
      | some value =>
          dsimp only
          rw [applyTo_alike hrecur h.silent]
          exact bind_congr fun acc => ih acc

theorem fold_alike (h : a.Alike base b) (index : UInt32) (initial combine : Value)
    (generator : Expr) (includeSelf : Bool) :
    fold recur initial combine generator includeSelf (a.nest (.foldHood index)) =
      fold recur initial combine generator includeSelf (b.nest (.foldHood index)) := by
  have hinner := h.nest (.foldHood index)
  rw [fold_eq, fold_eq, hrecur _ hinner.toSelf]
  refine bind_congr ?_
  intro own
  rw [foldStart, foldStart, applyTo_alike hrecur hinner.silent]
  refine bind_congr ?_
  intro start
  rw [foldNeighbors_alike hrecur hinner generator combine (h.alignedNeighbors_foldHood index)]
  refine bind_congr ?_
  intro result
  rw [record_alike hinner]

/-- Reading a neighbor at an `nbr` slot is where the neighbors' values come in. -/
theorem nbrAt_alike (h : a.Alike base b) (body : Expr) (index : UInt32) :
    nbrAt recur body a.focus (a.nest (.nbr index)) =
      nbrAt recur body b.focus (b.nest (.nbr index)) := by
  have hinner := h.nest (.nbr index)
  have hfocus := h.focus
  generalize a.focus = x at hfocus ⊢
  generalize b.focus = y at hfocus ⊢
  cases hfocus with
  | self =>
      rw [nbrAt, nbrAt, hrecur _ hinner]
      refine bind_congr ?_
      intro v
      rw [record_alike hinner]
  | neighbor id hheard =>
      have hvalue := hheard (a.nest (.nbr index)).path (Path.below_push h.inside (.nbr index))
        (by simp [Context.nest, Path.endsIn_push, Slot.kind])
      rw [nbrAt, nbrAt, hvalue, hinner.path]

theorem repAt_alike (h : a.Alike base b) (init : Expr) (var : String) (update : Expr)
    (index : UInt32) :
    repAt recur init var update (a.nest (.rep index)) =
      repAt recur init var update (b.nest (.rep index)) := by
  have hinner := h.nest (.rep index)
  rw [repAt, repAt, h.remembered_rep index, hrecur _ hinner]
  cases (b.nest (.rep index)).remembered with
  | none => rfl
  | some previous => exact congrArg inside (hrecur _ (hinner.bind var previous))

theorem step_alike (h : a.Alike base b) (expr : Expr) : step recur expr a = step recur expr b := by
  cases expr with
  | literal v => rfl
  | var name => rw [step_var, step_var, h.lookup, located_alike h]
  | sense name => rw [step_sense, step_sense, h.sense, located_alike h]
  | neighborSense name =>
      rw [step_neighborSense, step_neighborSense, h.neighborSense, located_alike h]
  | selfId => rw [step_selfId, step_selfId, h.inputs.device]
  | lambda code params body => rw [step_lambda, step_lambda, h.env]
  | apply function args =>
      rw [step_apply, step_apply, hrecur _ h, evalAll_alike hrecur h]
      refine bind_congr ?_
      intro f
      refine bind_congr ?_
      intro vs
      exact applyTo_alike hrecur h f vs
  | letIn name value body =>
      rw [step_letIn, step_letIn, hrecur _ h]
      refine bind_congr ?_
      intro v
      exact hrecur _ (h.bind name v)
  | branch condition thenSide elseSide =>
      rw [step_branch, step_branch, hrecur _ h]
      refine bind_congr ?_
      intro c
      rw [located_alike h]
      refine bind_congr ?_
      intro taken
      refine bind_congr ?_
      intro index
      rw [hrecur _ (h.nest _)]
      refine bind_congr ?_
      intro v
      rw [record_alike (h.nest _)]
  | rep init var update =>
      rw [step_rep, step_rep]
      refine bind_congr ?_
      intro index
      rw [repAt_alike hrecur h]
      refine bind_congr ?_
      intro v
      rw [record_alike (h.nest _)]
  | nbr body =>
      rw [step_nbr, step_nbr]
      exact bind_congr fun index => nbrAt_alike hrecur h body index
  | neighborFold default accumulator generator includeSelf =>
      rw [step_neighborFold, step_neighborFold, hrecur _ h, hrecur _ h]
      refine bind_congr ?_
      intro initial
      refine bind_congr ?_
      intro combine
      refine bind_congr ?_
      intro index
      exact fold_alike hrecur h index initial combine generator includeSelf

omit hrecur

/-- Positions that are alike give the same evaluation, however deep it nests. -/
theorem eval_alike (depth : Nat) (expr : Expr) (h : a.Alike base b) :
    eval depth expr a = eval depth expr b := by
  induction depth generalizing expr a b with
  | zero => exact fail_alike h _
  | succ depth ih => exact step_alike (fun expr _ _ h => ih expr h) h expr

end Eval

/-- Evaluation at a path depends on the past and on the neighbors only through what lies
strictly below the path: remembered values at `rep` slots, the presence of values at
`foldHood` slots, and the values of other devices at `nbr` slots. If two rounds agree on
these, they come to the same value and export or to the same error. -/
theorem evaluateIn_eq_of_alike_below (program : Expr) (ctx : Context) (state : DeviceState)
    (neighbors : NeighborSnapshot)
    (hremembered : ∀ path, Path.Below ctx.path path → Path.endsIn path .rep →
      ctx.inputs.state.get? path = state.get? path)
    (haligned : ∀ id, id ≠ ctx.inputs.device →
      (ctx.inputs.neighbors.exportOf id).AlignedAlike ctx.path (neighbors.exportOf id))
    (hheard : ∀ id, id ≠ ctx.inputs.device →
      (ctx.inputs.neighbors.exportOf id).HeardAlike ctx.path (neighbors.exportOf id)) :
    evaluateIn program ctx =
      evaluateIn program
        { ctx with inputs := { ctx.inputs with state := state, neighbors := neighbors } } := by
  have hfocus : ctx.focus.Alike ctx.path ctx.focus := by
    cases ctx.focus with
    | self => exact .self
    | neighbor id exported => exact .neighbor id fun _ _ _ => rfl
  have hinputs : ctx.inputs.Alike ctx.path
      { ctx.inputs with state := state, neighbors := neighbors } :=
    ⟨rfl, rfl, hremembered, haligned, hheard⟩
  have halike : ctx.Alike ctx.path
      { ctx with inputs := { ctx.inputs with state := state, neighbors := neighbors } } :=
    ⟨hinputs, rfl, List.prefix_rfl, rfl, hfocus, rfl⟩
  rw [evaluateIn, evaluateIn, Eval.eval_alike depthLimit program halike]

/-- A device inside the `then` side of a branch, with nothing remembered or heard. -/
def thenSide : Context :=
  { Context.root ⟨⟨"a"⟩, SensorTable.empty.sensors, .empty, .empty⟩ with path := [.branch 0 true] }

/-- What the device computed on the other side, and the value of the branch itself. -/
def besideThenSide : DeviceState :=
  ⟨Dict.ofList [([.branch 0 false, .rep 0], .bool true), ([.branch 0 true], .unit)]⟩

/-- The device's own values on this side, and a neighbor's on the other. -/
def beyondThenSide : NeighborSnapshot :=
  Dict.ofList
    [(⟨"a"⟩, .ofPuts [([.branch 0 true, .foldHood 0, .nbr 0], .unit)] .unit),
      (⟨"b"⟩, .ofPuts [([.branch 0 true], .unit), ([.branch 0 false, .foldHood 0], .unit)] .unit)]

/-- No value of another device lies below this side. -/
theorem beyondThenSide_get? {id : DeviceId} (hid : id ≠ ⟨"a"⟩) {path : Path}
    (hbelow : Path.Below [.branch 0 true] path) :
    (beyondThenSide.exportOf id).get? path = none := by
  by_contra hsome
  obtain ⟨value, hvalue⟩ := Option.ne_none_iff_exists'.mp hsome
  cases hfound : beyondThenSide.find? id with
  | none =>
      rw [NeighborSnapshot.exportOf, hfound] at hvalue
      cases hvalue
  | some exported =>
      rw [NeighborSnapshot.exportOf, hfound] at hvalue
      have hmem := Dict.mem_of_find?_ofList hfound
      simp only [List.mem_cons, Prod.mk.injEq, List.not_mem_nil, or_false] at hmem
      rcases hmem with ⟨hown, -⟩ | ⟨-, rfl⟩
      · exact hid hown
      · have hroot : path ≠ Path.root := by
          rintro rfl
          exact Path.not_below_root _ hbelow
        have hput := Export.mem_of_get?_ofPuts hroot hvalue
        simp only [List.mem_cons, Prod.mk.injEq, List.not_mem_nil, or_false] at hput
        rcases hput with ⟨rfl, -⟩ | ⟨rfl, -⟩
        · revert hbelow
          decide
        · revert hbelow
          decide

/-- Neither own values nor a neighbor on the other side of the branch are seen by a fold
on this side. -/
theorem fold_ignores_beside_then_side :
    evaluateIn (.fold (.literal .unit) (.literal (.builtin .tuple)) (.nbr .selfId)) thenSide =
      evaluateIn (.fold (.literal .unit) (.literal (.builtin .tuple)) (.nbr .selfId))
        { thenSide with inputs :=
          { thenSide.inputs with state := besideThenSide, neighbors := beyondThenSide } } := by
  apply evaluateIn_eq_of_alike_below
  · intro path hbelow _
    symm
    change besideThenSide.values.find? path = none
    by_contra hsome
    obtain ⟨value, hvalue⟩ := Option.ne_none_iff_exists'.mp hsome
    have hmem := Dict.mem_of_find?_ofList hvalue
    simp only [List.mem_cons, Prod.mk.injEq, List.not_mem_nil, or_false] at hmem
    rcases hmem with ⟨rfl, -⟩ | ⟨rfl, -⟩
    · revert hbelow
      decide
    · revert hbelow
      decide
  · intro id hid path hbelow _
    symm
    change ((beyondThenSide.exportOf id).get? path).isSome = false
    rw [beyondThenSide_get? hid hbelow]
    rfl
  · intro id hid path hbelow _
    exact (beyondThenSide_get? hid hbelow).symm

end FieldCalculus
