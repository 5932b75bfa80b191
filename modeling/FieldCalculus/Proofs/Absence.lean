import FieldCalculus.Proofs.Stopping
import Mathlib.Data.List.Induction

/-!
Absent values of neighbors. That a neighbor lacks a value stops only what is evaluated with this
neighbor in focus, up to the fold that focused on it, and there the neighbor is skipped. A
position that reads the device's own values is in no such fold, so nothing ever fails there for a
value that is not found.
-/

namespace FieldCalculus

/-! ## Positions that read the device's own values -/

/-- The positions that can be reached from the whole program by entering slots, binding variables,
reading the device's own values and turning recording off. -/
inductive Context.Built : Context → Prop where
  | root (inputs : RoundInputs) : Built (.root inputs)
  | nest {ctx : Context} (h : Built ctx) (slot : Slot) : Built (ctx.nest slot)
  | bind {ctx : Context} (h : Built ctx) (name : String) (value : Value) :
    Built (ctx.bind name value)
  | withEnv {ctx : Context} (h : Built ctx) (env : Env) : Built (ctx.withEnv env)
  | toSelf {ctx : Context} (h : Built ctx) : Built ctx.toSelf
  | silent {ctx : Context} (h : Built ctx) : Built ctx.silent

namespace Context.Built

theorem focus {ctx : Context} (h : ctx.Built) : ctx.focus = .self := by
  induction h with
  | root inputs => rfl
  | nest _ _ ih => exact ih
  | bind _ _ _ ih => exact ih
  | withEnv _ _ ih => exact ih
  | toSelf _ _ => rfl
  | silent _ ih => exact ih

/-- Any path can be entered. -/
theorem at_path (inputs : RoundInputs) (path : Path) :
    Built { Context.root inputs with path := path } := by
  induction path using List.reverseRecOn with
  | nil => exact .root inputs
  | append_singleton path slot ih => exact ih.nest slot

/-- These are all the positions with the device itself in focus. -/
theorem iff_focus {ctx : Context} : ctx.Built ↔ ctx.focus = .self := by
  refine ⟨focus, ?_⟩
  obtain ⟨inputs, path, env, focus, recording⟩ := ctx
  rintro ⟨⟩
  have hrecording := (at_path inputs path).withEnv env
  cases recording with
  | true => exact hrecording
  | false => exact hrecording.silent

end Context.Built

/-! ## Why an evaluation stops -/

/-- Why an evaluation at the position may stop. A value is missed only of the neighbor in focus,
and only where the evaluation asks for it. -/
def Context.MayStop (ctx : Context) : Interrupt → Prop
  | .failed error => error.fault ≠ .unalignedRead
  | .absent path => ∃ id exported, ctx.focus = .neighbor id exported ∧
      Path.Below ctx.path path ∧ Path.endsIn path .nbr ∧ exported.get? path = none

namespace Eval

theorem reasons_mayStop : Reasons Context.MayStop where
  failed hfault := hfault
  missed := by
    intro ctx id exported index hfocus hvalue
    refine ⟨id, exported, hfocus, Path.below_push List.prefix_rfl _, ?_, hvalue⟩
    rw [Path.endsIn_push]
    rfl
  within := by
    intro ctx inner interrupt hinner hpath hfocus
    cases interrupt with
    | failed error => exact hinner
    | absent path =>
        obtain ⟨id, exported, hneighbor, hbelow, hmissed⟩ := hinner
        exact ⟨id, exported, hfocus.symm.trans hneighbor, hbelow.of_prefix hpath, hmissed⟩
  toSelf := by
    -- where the device itself is in focus, no value is missed
    intro ctx interrupt hself
    cases interrupt with
    | failed error => exact hself
    | absent path =>
        obtain ⟨id, exported, hfocus, -⟩ := hself
        cases hfocus
  focusedOn hasked := hasked

theorem stops_eval (depth : Nat) (expr : Expr) (ctx : Context) :
    (eval depth expr ctx).Stops ctx.MayStop :=
  reasons_mayStop.stops_eval depth expr ctx

/-- A fold skips the neighbor that lacks a value. -/
theorem foldNeighbors_skip {recur : Expr → Context → Eval Value} {generator : Expr} {ctx : Context}
    {id : DeviceId} {exported : Export} {path : Path}
    (h : recur generator (ctx.toSelf.focusedOn id exported) 0 = .error (.absent path))
    (combine : Value) (rest : List (DeviceId × Export)) (acc : Value) (slots : Nat) :
    foldNeighbors recur generator combine ctx ((id, exported) :: rest) acc slots =
      foldNeighbors recur generator combine ctx rest acc slots := by
  have hskipped : present? (inside (recur generator (ctx.toSelf.focusedOn id exported))) slots =
      .ok ⟨none, slots, []⟩ := by
    rw [present?, inside, h]
  rw [foldNeighbors_cons, bind_run hskipped]
  dsimp only
  cases foldNeighbors recur generator combine ctx rest acc slots <;> rfl

end Eval

/-- No evaluation that reads the device's own values fails for a value that is not found. A value
is only ever missed in the export of the neighbor that a fold has in focus, at a place below the
fold, and the fold goes on with the others as if this neighbor were not among them. -/
theorem never_unaligned (program : Expr) (ctx : Context) (hbuilt : ctx.Built) :
    (∀ path, evaluateIn program ctx ≠ .error ⟨.unalignedRead, path⟩) ∧
      ∀ (depth : Nat) (generator : Expr) (fold : Context) (id : DeviceId) (exported : Export)
        (path : Path),
        Eval.eval depth generator (fold.toSelf.focusedOn id exported) 0 = .error (.absent path) →
        (Path.Below fold.path path ∧ exported.get? path = none) ∧
          ∀ combine rest acc slots,
            Eval.foldNeighbors (Eval.eval depth) generator combine fold ((id, exported) :: rest)
                acc slots =
              Eval.foldNeighbors (Eval.eval depth) generator combine fold rest acc slots := by
  refine ⟨?_, ?_⟩
  · intro path hfails
    unfold evaluateIn at hfails
    cases heval : Eval.eval depthLimit program ctx 0 with
    | ok y =>
        rw [heval] at hfails
        cases hfails
    | error interrupt =>
        have hstops := Eval.stops_eval depthLimit program ctx 0 interrupt heval
        rw [heval] at hfails
        cases interrupt with
        | failed error =>
            cases hfails
            exact hstops rfl
        | absent path =>
            obtain ⟨id, exported, hfocus, -⟩ := hstops
            rw [hbuilt.focus] at hfocus
            cases hfocus
  · intro depth generator fold id exported path habsent
    obtain ⟨_, _, hfocus, hbelow, -, hmissed⟩ := Eval.stops_eval depth generator _ 0 _ habsent
    cases hfocus
    exact ⟨⟨hbelow, hmissed⟩, Eval.foldNeighbors_skip habsent⟩

/-- Asks each neighbor for its id and, in a fold within the fold, for those around it. -/
def askedTwice : Expr :=
  .foldPlus (.literal .unit) (.literal (.builtin .tuple))
    (.foldPlus (.nbr .selfId) (.literal (.builtin .tuple)) (.nbr .selfId))

/-- A device with a neighbor that took part in the outer fold without telling its id. -/
def besideMute : RoundInputs where
  device := ⟨"a"⟩
  sensors := SensorTable.empty.sensors
  state := .empty
  neighbors := Dict.ofList
    [(⟨"b"⟩, .ofPuts [([.foldHood 0], .unit), ([.foldHood 0, .foldHood 1, .nbr 0], .unit)] .unit)]

/-- The outer fold skips the neighbor, and the device still tells its own id. -/
theorem askedTwice_not_unaligned :
    evaluateIn askedTwice (.root besideMute) = .ok ⟨.unit, .ofPuts
        [([.foldHood 0, .nbr 0], .text "a"), ([.foldHood 0, .foldHood 1, .nbr 0], .text "a"),
          ([.foldHood 0, .foldHood 1], .text "a"), ([.foldHood 0], .unit)] .unit⟩ ∧
      ∀ path, evaluateIn askedTwice (.root besideMute) ≠ .error ⟨.unalignedRead, path⟩ :=
  ⟨by cbv, (never_unaligned askedTwice _ (.root besideMute)).1⟩

end FieldCalculus
