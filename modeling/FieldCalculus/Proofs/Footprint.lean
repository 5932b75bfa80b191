import FieldCalculus.Proofs.Alignment
import FieldCalculus.Proofs.Enclosure
import FieldCalculus.Proofs.Silence

/-!
The paths of an export do not depend on values. A program without branches that applies only
built-ins opens its slots in the same order for every device, and what it evaluates for a neighbor
or inside of an accumulator it does not record. So the paths of its entries can be listed from the
program alone, once it is known at which `rep` slots a value is remembered.
-/

namespace FieldCalculus

/-! ## Steady programs -/

mutual

/-- Evaluation takes the same course whatever the values are: there is no branch, and what is
applied is a built-in. The body of a lambda does not count, since only a fold applies it. -/
def Expr.isSteady : Expr → Bool
  | .literal _ | .var _ | .sense _ | .neighborSense _ | .selfId | .lambda _ _ _ => true
  | .apply (.literal (.builtin _)) args => Expr.isSteadyAll args
  | .apply _ _ | .branch _ _ _ => false
  | .letIn _ value body => Expr.isSteady value && Expr.isSteady body
  | .rep init _ update => Expr.isSteady init && Expr.isSteady update
  | .nbr body => Expr.isSteady body
  | .neighborFold default accumulator generator _ =>
    Expr.isSteady default && Expr.isSteady accumulator && Expr.isSteady generator

def Expr.isSteadyAll : List Expr → Bool
  | [] => true
  | e :: rest => Expr.isSteady e && Expr.isSteadyAll rest

end

mutual

/-- The paths that a steady program records at a place where `slots` are open, in order. A `rep`
at which nothing is `remembered` starts, and the others go on. -/
def Expr.footprint (remembered : Path → Bool) (path : Path) (slots : Nat) : Expr → List Path
  | .literal _ | .var _ | .sense _ | .neighborSense _ | .selfId | .lambda _ _ _
  | .branch _ _ _ => []
  | .apply _ args => Expr.footprintAll remembered path slots args
  | .letIn _ value body =>
    Expr.footprint remembered path slots value ++
      Expr.footprint remembered path (slots + value.openers.length) body
  | .rep init _ update =>
    let inner := Path.push path (.rep (UInt32.ofNat slots))
    (if remembered inner then Expr.footprint remembered inner 0 update
      else Expr.footprint remembered inner 0 init) ++ [inner]
  | .nbr body =>
    let inner := Path.push path (.nbr (UInt32.ofNat slots))
    Expr.footprint remembered inner 0 body ++ [inner]
  | .neighborFold default accumulator generator _ =>
    let folded := slots + default.openers.length + accumulator.openers.length
    let inner := Path.push path (.foldHood (UInt32.ofNat folded))
    Expr.footprint remembered path slots default ++
      (Expr.footprint remembered path (slots + default.openers.length) accumulator ++
        (Expr.footprint remembered inner 0 generator ++ [inner]))

def Expr.footprintAll (remembered : Path → Bool) (path : Path) (slots : Nat) :
    List Expr → List Path
  | [] => []
  | e :: rest =>
    Expr.footprint remembered path slots e ++
      Expr.footprintAll remembered path (slots + e.openers.length) rest

end

theorem Expr.isSteadyAll_iff {es : List Expr} : isSteadyAll es ↔ ∀ e ∈ es, e.isSteady := by
  induction es with
  | nil => simp [isSteadyAll]
  | cons head rest ih => simp [isSteadyAll, ih]

/-- A steady program applies what it names as a built-in. -/
theorem Expr.exists_builtin_of_isSteady {function : Expr} {args : List Expr}
    (h : (apply function args).isSteady) :
    ∃ b, function = .literal (.builtin b) ∧ ∀ e ∈ args, e.isSteady := by
  unfold isSteady at h
  split at h <;> simp_all [isSteadyAll_iff]

namespace Eval

/-! ## Computations that leave known paths -/

section Sequence

variable {α β : Type} {start middle stop : Nat} {paths paths' : List Path} {ctx : Context}

/-- From `start` open slots on, the computation finishes only with `stop` open slots and with
entries at these paths, in this order. -/
def Leaves (x : Eval α) (start stop : Nat) (paths : List Path) : Prop :=
  ∀ y, x start = .ok y → y.slots = stop ∧ y.puts.map Prod.fst = paths

theorem Mute.leaves {x : Eval α} (hx : x.Mute) : x.Leaves start start [] := by
  intro y hy
  obtain ⟨hslots, hputs⟩ := hx start y hy
  exact ⟨hslots, by rw [hputs, List.map_nil]⟩

theorem leaves_pure (a : α) : (pure a : Eval α).Leaves start start [] := (Mute.pure a).leaves

theorem leaves_located (result : Except Fault α) : (located ctx result).Leaves start start [] := by
  intro y hy
  obtain ⟨a, -, rfl⟩ := located_eq_ok hy
  exact ⟨rfl, rfl⟩

theorem Leaves.bind {x : Eval α} {f : α → Eval β} (hx : x.Leaves start middle paths)
    (hf : ∀ a, (f a).Leaves middle stop paths') :
    (x >>= f).Leaves start stop (paths ++ paths') := by
  intro z hz
  obtain ⟨y, w, hy, hw, rfl⟩ := bind_eq_ok hz
  obtain ⟨rfl, hputs⟩ := hx y hy
  obtain ⟨hslots, hputs'⟩ := hf y.value w hw
  exact ⟨hslots, by rw [List.map_append, hputs, hputs']⟩

theorem Mute.bind_leaves {x : Eval α} {f : α → Eval β} (hx : x.Mute)
    (hf : ∀ a, (f a).Leaves start stop paths) : (x >>= f).Leaves start stop paths :=
  Leaves.bind hx.leaves hf

theorem leaves_nextSlot {f : UInt32 → Eval β}
    (hf : (f (UInt32.ofNat start)).Leaves (start + 1) stop paths) :
    (nextSlot >>= f).Leaves start stop paths := by
  intro z hz
  obtain ⟨y, w, hy, hw, rfl⟩ := bind_eq_ok hz
  cases hy
  exact hf w hw

theorem Leaves.inside {x : Eval α} (hx : x.Leaves 0 stop paths) :
    (inside x).Leaves start start paths := by
  intro y hy
  obtain ⟨w, hw, rfl⟩ := inside_eq_ok hy
  exact ⟨rfl, (hx w hw).2⟩

/-- A value that is recorded and then given back. -/
theorem leaves_record_return (hrecording : ctx.recording = true) (value : Value) :
    (do record ctx value; return value : Eval Value).Leaves start start [ctx.path] := by
  intro y hy
  rw [bind_run (record_run ctx value start), hrecording, pure_run] at hy
  cases hy
  exact ⟨rfl, rfl⟩

end Sequence

/-! ## Evaluation of steady programs -/

section Node

variable {recur : Expr → Context → Eval Value} {ctx : Context} {slots : Nat}

/-- Where the device tells its own values, a steady program opens the slots that are written on its
level and leaves its footprint. -/
def LeavesFootprint (recur : Expr → Context → Eval Value) : Prop :=
  ∀ {e : Expr} {ctx : Context} (slots : Nat), ctx.Telling → e.isSteady →
    (recur e ctx).Leaves slots (slots + e.openers.length)
      (e.footprint ctx.inputs.remembers ctx.path slots)

theorem leaves_literal (hliteral : KeepsLiterals recur) {β : Type} {v : Value} {f : Value → Eval β}
    {stop : Nat} {paths : List Path} (hf : (f v).Leaves slots stop paths) :
    (recur (.literal v) ctx >>= f).Leaves slots stop paths := by
  intro z hz
  obtain ⟨y, w, hy, hw, rfl⟩ := bind_eq_ok hz
  obtain ⟨hvalue, hslots, hputs⟩ := hliteral v ctx slots (fun _ => False) y hy
  rw [hvalue, hslots] at hw
  rw [List.eq_nil_iff_forall_not_mem.mpr hputs]
  exact hf w hw

variable (hrecur : LeavesFootprint recur)

include hrecur

theorem leaves_evalAll (hctx : ctx.Telling) {es : List Expr} (hes : ∀ e ∈ es, e.isSteady) :
    (evalAll recur ctx es).Leaves slots (slots + (Expr.openersAll es).length)
      (Expr.footprintAll ctx.inputs.remembers ctx.path slots es) := by
  induction es generalizing slots with
  | nil => exact leaves_pure []
  | cons e rest ih =>
      obtain ⟨he, hrest⟩ := List.forall_mem_cons.mp hes
      rw [evalAll, Expr.openersAll, List.length_append, ← Nat.add_assoc, Expr.footprintAll]
      refine (hrecur slots hctx he).bind fun v => ?_
      rw [← List.append_nil (Expr.footprintAll _ _ _ rest)]
      exact (ih hrest).bind fun vs => leaves_pure _

theorem leaves_repAt (hctx : ctx.Telling) {init update : Expr} (name : String)
    (hinit : init.isSteady) (hupdate : update.isSteady) :
    (repAt recur init name update ctx).Leaves slots slots
      (if ctx.inputs.remembers ctx.path then update.footprint ctx.inputs.remembers ctx.path 0
        else init.footprint ctx.inputs.remembers ctx.path 0) := by
  have hremembers : ctx.inputs.remembers ctx.path = ctx.remembered.isSome := rfl
  rw [hremembers, repAt]
  cases ctx.remembered with
  | none => exact (hrecur 0 hctx hinit).inside
  | some previous => exact (hrecur 0 (hctx.bind name previous) hupdate).inside

variable (hrecords : ∀ expr ctx, Records (fun path _ _ puts => Complete path puts) ctx
  (recur expr ctx))

include hrecords

/-- A fold leaves what the device tells itself, and its result. -/
theorem leaves_fold (hctx : ctx.Telling) (initial combine : Value) {generator : Expr}
    (hgenerator : generator.isSteady) (includeSelf : Bool) :
    (fold recur initial combine generator includeSelf ctx).Leaves slots slots
      (generator.footprint ctx.inputs.remembers ctx.path 0 ++ [ctx.path]) := by
  have hfits : ∀ expr inner opened y, recur expr inner opened = .ok y → True :=
    fun _ _ _ _ _ => trivial
  rw [fold_eq]
  refine (hrecur 0 hctx.toSelf hgenerator).inside.bind fun own => ?_
  have hstart : (foldStart recur ctx combine initial own includeSelf).Mute := by
    rw [foldStart]
    split
    · exact mute_combine law_complete hfits hrecords combine _ ctx
    · exact .pure initial
  refine hstart.bind_leaves fun start => ?_
  refine (mute_foldNeighbors law_complete hfits hrecords generator combine ctx _ start).bind_leaves
    fun result => ?_
  exact leaves_record_return hctx.recording result

theorem leaves_step (hliteral : KeepsLiterals recur) {e : Expr} (hctx : ctx.Telling)
    (he : e.isSteady) :
    (step recur e ctx).Leaves slots (slots + e.openers.length)
      (e.footprint ctx.inputs.remembers ctx.path slots) := by
  cases e with
  | literal v => exact leaves_pure v
  | var name => exact leaves_located _
  | sense name => exact leaves_located _
  | neighborSense name => exact leaves_located _
  | selfId => exact leaves_pure _
  | lambda code params body => exact leaves_pure _
  | apply function args =>
      obtain ⟨b, rfl, hargs⟩ := Expr.exists_builtin_of_isSteady he
      rw [step_apply, Expr.openers, Expr.footprint]
      refine leaves_literal hliteral ?_
      rw [← List.append_nil (Expr.footprintAll _ _ _ args)]
      exact (leaves_evalAll hrecur hctx hargs).bind fun vs => leaves_located _
  | letIn name value body =>
      simp only [Expr.isSteady, Bool.and_eq_true] at he
      rw [step_letIn, Expr.openers, List.length_append, ← Nat.add_assoc, Expr.footprint]
      exact (hrecur slots hctx he.1).bind fun v => hrecur _ (hctx.bind name v) he.2
  | branch condition thenSide elseSide => cases he
  | rep init name update =>
      simp only [Expr.isSteady, Bool.and_eq_true] at he
      rw [step_rep, Expr.openers, List.length_singleton, Expr.footprint]
      refine leaves_nextSlot ?_
      have hinner := hctx.nest (.rep (UInt32.ofNat slots))
      exact (leaves_repAt hrecur hinner name he.1 he.2).bind fun v =>
        leaves_record_return hinner.recording v
  | nbr body =>
      rw [step_nbr, hctx.focus, Expr.openers, List.length_singleton, Expr.footprint]
      refine leaves_nextSlot ?_
      have hinner := hctx.nest (.nbr (UInt32.ofNat slots))
      exact (hrecur (e := body) 0 hinner he).inside.bind fun v =>
        leaves_record_return hinner.recording v
  | neighborFold default accumulator generator includeSelf =>
      simp only [Expr.isSteady, Bool.and_eq_true] at he
      obtain ⟨⟨hdefault, haccumulator⟩, hgenerator⟩ := he
      rw [step_neighborFold, Expr.openers, List.length_append, List.length_append,
        List.length_singleton, ← Nat.add_assoc, ← Nat.add_assoc, Expr.footprint]
      refine (hrecur slots hctx hdefault).bind fun initial => ?_
      refine (hrecur _ hctx haccumulator).bind fun combine => leaves_nextSlot ?_
      exact leaves_fold hrecur hrecords (hctx.nest _) initial combine hgenerator includeSelf

end Node

theorem eval_leavesFootprint (depth : Nat) : LeavesFootprint (eval depth) := by
  induction depth with
  | zero =>
      intro e ctx slots _ _ y hy
      cases hy
  | succ depth ih =>
      exact fun slots hctx he =>
        leaves_step ih (records_complete depth) (eval_keepsLiterals depth) hctx he

end Eval

/-! ## Exports -/

/-- Apart from the root, a steady program exports at its footprint. -/
theorem Export.contains_footprint {program : Expr} (hsteady : program.isSteady)
    {inputs : RoundInputs} {result : Evaluation} (h : evaluate program inputs = .ok result)
    (path : Path) :
    result.exported.contains path ↔
      path = Path.root ∨ path ∈ program.footprint inputs.remembers Path.root 0 := by
  obtain ⟨y, heval, rfl⟩ := exists_yield_of_evaluateIn h
  have hroot : (Context.root inputs).Telling := ⟨rfl, rfl⟩
  obtain ⟨-, hpaths⟩ := Eval.eval_leavesFootprint depthLimit 0 hroot hsteady y heval
  rw [Export.contains_ofPuts, hpaths]
  rfl

/-- Paths are stable. Whatever the devices, their sensors and their neighbors are, and whatever
values they remember, a steady program exports at the same paths if values are remembered at the
same paths. -/
theorem exported_paths_stable (program : Expr) (hsteady : program.isSteady) (a b : RoundInputs)
    (hremembered : ∀ path, (a.state.get? path).isSome = (b.state.get? path).isSome)
    (here there : Evaluation) (hhere : evaluate program a = .ok here)
    (hthere : evaluate program b = .ok there) (path : Path) :
    here.exported.contains path = there.exported.contains path := by
  have hsame : a.remembers = b.remembers := funext hremembered
  rw [Bool.eq_iff_iff, Export.contains_footprint hsteady hhere,
    Export.contains_footprint hsteady hthere, hsame]

/-- A state that is told, and a fold of what neighbors tell. The fold is given a function that
tells neighbors something itself. -/
def toldState : Expr :=
  .letIn "x" (.rep (.literal .unit) "n" (.nbr (.var "n")))
    (.fold (.literal .unit) (.lambda ⟨"later"⟩ ["x", "y"] (.nbr (.var "y"))) (.nbr .selfId))

/-- A device that remembers a value of its own. -/
def remembering (name : String) (value : Value) (neighbors : NeighborSnapshot) : RoundInputs :=
  ⟨⟨name⟩, SensorTable.empty.sensors, ⟨Dict.empty.insert [.rep 0] value⟩, neighbors⟩

/-- What a device tells that remembers `value` and whose fold comes to `folded`. -/
def toldStateExport (name : String) (value folded : Value) : Export :=
  .ofPuts [([.rep 0, .nbr 0], value), ([.rep 0], value), ([.foldHood 1, .nbr 0], .text name),
    ([.foldHood 1], folded)] folded

/-- The device `b` hears `a` and remembers something else. -/
theorem toldState_paths_stable :
    evaluate toldState (remembering "a" .unit .empty) =
      .ok ⟨.text "a", toldStateExport "a" .unit (.text "a")⟩ ∧
    evaluate toldState (remembering "b" (.bool true)
        (Dict.empty.insert ⟨"a"⟩ (toldStateExport "a" .unit (.text "a")))) =
      .ok ⟨.text "a", toldStateExport "b" (.bool true) (.text "a")⟩ ∧
    ∀ path, (toldStateExport "a" .unit (.text "a")).contains path =
      (toldStateExport "b" (.bool true) (.text "a")).contains path := by
  have hhere : evaluate toldState (remembering "a" .unit .empty) =
      .ok ⟨.text "a", toldStateExport "a" .unit (.text "a")⟩ := by cbv
  have hthere : evaluate toldState (remembering "b" (.bool true)
        (Dict.empty.insert ⟨"a"⟩ (toldStateExport "a" .unit (.text "a")))) =
      .ok ⟨.text "a", toldStateExport "b" (.bool true) (.text "a")⟩ := by cbv
  refine ⟨hhere, hthere, ?_⟩
  refine exported_paths_stable toldState rfl _ _ ?_ _ _ hhere hthere
  intro path
  change (Dict.find? (Dict.insert _ _ _) path).isSome =
    (Dict.find? (Dict.insert _ _ _) path).isSome
  rw [Dict.find?_insert, Dict.find?_insert]
  split <;> rfl

end FieldCalculus
