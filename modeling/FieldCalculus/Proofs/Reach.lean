import FieldCalculus.Context
import FieldCalculus.Proofs.Export

/-!
The values in reach of an evaluation. They stand in the readings, the state and the exports of
neighbors that a round is given, in the bindings of a position, and in the export of the neighbor
in focus. A property that all of them have is kept on the way to any other position, as long as
what is bound there has it too.
-/

namespace FieldCalculus

variable {good : Value → Prop}

def Export.All (good : Value → Prop) (e : Export) : Prop :=
  ∀ path v, e.get? path = some v → good v

def DeviceState.All (good : Value → Prop) (state : DeviceState) : Prop :=
  ∀ path v, state.get? path = some v → good v

structure Sensors.All (good : Value → Prop) (sensors : Sensors) : Prop where
  own : ∀ name v, sensors.sense name = some v → good v
  relative : ∀ name id v, sensors.neighborSense name id = some v → good v

/-- All values that a round is given have the property. -/
structure RoundInputs.All (good : Value → Prop) (inputs : RoundInputs) : Prop where
  sensors : inputs.sensors.All good
  state : inputs.state.All good
  neighbors : ∀ id exported, inputs.neighbors.find? id = some exported → exported.All good

theorem Export.all_ofPuts {puts : List (Path × Value)} {root : Value}
    (hputs : ∀ put ∈ puts, good put.2) (hroot : good root) : (ofPuts puts root).All good := by
  intro path v hv
  by_cases hpath : path = Path.root
  · rw [get?_ofPuts, if_pos hpath, Option.some.injEq] at hv
    rw [← hv]
    exact hroot
  · exact hputs _ (mem_of_get?_ofPuts hpath hv)

theorem DeviceState.All.absorb {state : DeviceState} (h : state.All good) {exported : Export}
    (hexported : exported.All good) : (state.absorb exported).All good := by
  intro path v hv
  rw [get?_absorb_eq] at hv
  split at hv
  · rcases Option.or_eq_some_iff.mp hv with hnew | ⟨-, hold⟩
    · exact hexported path v hnew
    · exact h path v hold
  · exact h path v hv

/-! ## Positions -/

/-- All values in reach at this position are good. -/
structure Context.All (good : Value → Prop) (ctx : Context) : Prop where
  inputs : ctx.inputs.All good
  env : ∀ entry ∈ ctx.env, good entry.2
  focus : ∀ id exported, ctx.focus = .neighbor id exported → exported.All good

namespace Context.All

variable {ctx : Context}

theorem root {inputs : RoundInputs} (h : inputs.All good) : (Context.root inputs).All good := by
  refine ⟨h, ?_, ?_⟩
  · intro entry hentry
    cases hentry
  · intro id exported hfocus
    cases hfocus

theorem nest (h : ctx.All good) (slot : Slot) : (ctx.nest slot).All good :=
  ⟨h.inputs, h.env, h.focus⟩

theorem silent (h : ctx.All good) : ctx.silent.All good := ⟨h.inputs, h.env, h.focus⟩

theorem toSelf (h : ctx.All good) : ctx.toSelf.All good := by
  refine ⟨h.inputs, h.env, ?_⟩
  intro id exported hfocus
  cases hfocus

theorem focusedOn (h : ctx.All good) (id : DeviceId) {exported : Export}
    (hexported : exported.All good) : (ctx.focusedOn id exported).All good := by
  refine ⟨h.inputs, h.env, ?_⟩
  rintro _ _ ⟨⟩
  exact hexported

theorem bind (h : ctx.All good) (name : String) {v : Value} (hv : good v) :
    (ctx.bind name v).All good := by
  refine ⟨h.inputs, ?_, h.focus⟩
  intro entry hentry
  rcases Entries.mem_insert hentry with rfl | hold
  · exact hv
  · exact h.env entry hold

/-- The bindings under which the body of a closure is evaluated. -/
theorem called (h : ctx.All good) {params : List String} {args : List Value} {env : Env}
    (henv : ∀ entry ∈ env, good entry.2) (hargs : ∀ v ∈ args, good v) :
    (ctx.withEnv (Entries.insertAll env (params.zip args))).All good := by
  refine ⟨h.inputs, ?_, h.focus⟩
  intro entry hentry
  rcases Entries.mem_insertAll hentry with hgiven | hcaptured
  · exact hargs entry.2 (List.of_mem_zip hgiven).2
  · exact henv entry hcaptured

theorem lookup (h : ctx.All good) {name : String} {v : Value} (hv : ctx.lookup name = .ok v) :
    good v := by
  unfold Context.lookup at hv
  split at hv
  · rename_i found hfound
    cases hv
    exact h.env (name, _) (Entries.mem_of_find? hfound)
  · cases hv

theorem sense (h : ctx.All good) {name : String} {v : Value} (hv : ctx.sense name = .ok v) :
    good v := by
  unfold Context.sense at hv
  split at hv
  · rename_i found hfound
    cases hv
    exact h.inputs.sensors.own name _ hfound
  · cases hv

theorem neighborSense (h : ctx.All good) {name : String} {v : Value}
    (hv : ctx.neighborSense name = .ok v) : good v := by
  unfold Context.neighborSense at hv
  split at hv
  · rename_i found hfound
    cases hv
    exact h.inputs.sensors.relative name _ _ hfound
  · cases hv

theorem remembered (h : ctx.All good) {v : Value} (hv : ctx.remembered = some v) : good v :=
  h.inputs.state ctx.path v hv

theorem aligned (h : ctx.All good) {neighbor : DeviceId × Export}
    (hmem : neighbor ∈ ctx.alignedNeighbors) : neighbor.2.All good :=
  h.inputs.neighbors neighbor.1 neighbor.2
    (Dict.find?_eq_some_iff.mpr (List.mem_filter.mp hmem).1)

end Context.All

end FieldCalculus
