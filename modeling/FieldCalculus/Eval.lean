import FieldCalculus.Builtin.Call
import FieldCalculus.Context

/-!
Evaluation of a program for one round. It is a function of the program and the
inputs of the round: no clock, no chance, neighbors in order of their ids. On the
way it records the values that neighbors need: the results of branches, reps, folds
and neighbor reads.

`Eval.step` gives the meaning of one node, with the meaning of its parts as an
argument; `Eval.eval` ties the knot and bounds the depth, because a closure may call
itself without end.
-/

namespace FieldCalculus

/-- Why an evaluation stops early. -/
inductive Interrupt where
  | failed (error : EvalError)
  /-- The neighbor in focus has no value at this path. -/
  | absent (path : Path)
deriving DecidableEq

/-- A finished computation: its value, how many slots are open at its level, and the
entries it recorded, in order. -/
structure Yield (α : Type) where
  value : α
  slots : Nat
  puts : List (Path × Value)

/-- A computation at one level of a program, given how many slots are already open
there. -/
def Eval (α : Type) : Type := Nat → Except Interrupt (Yield α)

namespace Eval

instance : Monad Eval where
  pure a := fun slots => .ok ⟨a, slots, []⟩
  bind x f := fun slots =>
    match x slots with
    | .error e => .error e
    | .ok y =>
      match f y.value y.slots with
      | .error e => .error e
      | .ok z => .ok ⟨z.value, z.slots, y.puts ++ z.puts⟩

/-- Stops with an error. -/
def fail {α : Type} (ctx : Context) (fault : Fault) : Eval α :=
  fun _ => .error (.failed ⟨fault, ctx.path⟩)

/-- A result, or a fault at the place of `ctx`. -/
def located {α : Type} (ctx : Context) : Except Fault α → Eval α
  | .ok a => pure a
  | .error fault => fail ctx fault

/-- Opens a slot at this level. -/
def nextSlot : Eval UInt32 := fun slots => .ok ⟨UInt32.ofNat slots, slots + 1, []⟩

/-- Records a value at the path of `ctx`, if values are recorded there. -/
def record (ctx : Context) (value : Value) : Eval Unit :=
  fun slots => .ok ⟨(), slots, if ctx.recording then [(ctx.path, value)] else []⟩

/-- Runs a computation one level deeper, where no slot is open yet. -/
def inside {α : Type} (x : Eval α) : Eval α := fun slots =>
  match x 0 with
  | .error e => .error e
  | .ok y => .ok { y with slots := slots }

/-- The value of a computation, or `none` if a neighbor's value is absent. -/
def present? {α : Type} (x : Eval α) : Eval (Option α) := fun slots =>
  match x slots with
  | .error (.absent _) => .ok ⟨none, slots, []⟩
  | .error (.failed e) => .error (.failed e)
  | .ok y => .ok ⟨some y.value, y.slots, y.puts⟩

section Node

variable (recur : Expr → Context → Eval Value)

/-- The values of several programs, from left to right. -/
def evalAll (ctx : Context) : List Expr → Eval (List Value)
  | [] => pure []
  | e :: rest => do
    let v ← recur e ctx
    let vs ← evalAll ctx rest
    return v :: vs

/-- Applies a function. The body of a closure is evaluated in a slot that names its
code, under the captured bindings and its arguments. -/
def applyTo (function : Value) (args : List Value) (ctx : Context) : Eval Value :=
  match function with
  | .builtin b => located ctx (b.call args)
  | .closure code params body env =>
    if params.length ≠ args.length then
      fail ctx (.arityMismatch params.length args.length)
    else do
      let index ← nextSlot
      let env := Entries.insertAll env (params.zip args)
      inside (recur body ((ctx.nest (.funCall index code)).withEnv env))
  | v => fail ctx (v.mismatch (.ofType .function))

/-- Combines into `acc` what the generator yields at each neighbor. A neighbor that
lacks a value the generator reads is skipped. -/
def foldNeighbors (generator : Expr) (combine : Value) (ctx : Context) :
    List (DeviceId × Export) → Value → Eval Value
  | [], acc => pure acc
  | (id, exported) :: rest, acc => do
    match ← present? (inside (recur generator (ctx.toSelf.focusedOn id exported))) with
    | some contribution =>
      let acc ← inside (applyTo recur combine [acc, contribution] ctx.silent)
      foldNeighbors generator combine ctx rest acc
    | none => foldNeighbors generator combine ctx rest acc

/-- A fold in the slot of `ctx`. The generator always runs for the device itself, so
that the values neighbors will read are recorded even if they do not count here. -/
def fold (initial combine : Value) (generator : Expr) (includeSelf : Bool) (ctx : Context) :
    Eval Value := do
  let own ← inside (recur generator ctx.toSelf)
  let start ←
    if includeSelf then inside (applyTo recur combine [initial, own] ctx.silent)
    else pure initial
  let result ← foldNeighbors recur generator combine ctx ctx.alignedNeighbors start
  record ctx result
  return result

/-- The meaning of one node, given the meaning of its parts. -/
def step (expr : Expr) (ctx : Context) : Eval Value :=
  match expr with
  | .literal v => pure v
  | .var name => located ctx (ctx.lookup name)
  | .sense name => located ctx (ctx.sense name)
  | .neighborSense name => located ctx (ctx.neighborSense name)
  | .selfId => pure (.text ctx.inputs.device.name)
  | .lambda code params body => pure (.closure code params body ctx.env)
  | .apply function args => do
    let f ← recur function ctx
    let vs ← evalAll recur ctx args
    applyTo recur f vs ctx
  | .letIn name value body => do
    let v ← recur value ctx
    recur body (ctx.bind name v)
  | .branch condition thenSide elseSide => do
    let c ← recur condition ctx
    let taken ← located ctx c.asBool
    let index ← nextSlot
    let inner := ctx.nest (.branch index taken)
    let v ← inside (recur (if taken then thenSide else elseSide) inner)
    record inner v
    return v
  | .rep init var update => do
    let index ← nextSlot
    let inner := ctx.nest (.rep index)
    let v ← match inner.remembered with
      | some previous => inside (recur update (inner.bind var previous))
      | none => inside (recur init inner)
    record inner v
    return v
  | .nbr body => do
    let index ← nextSlot
    let inner := ctx.nest (.nbr index)
    match ctx.focus with
    | .neighbor _ exported =>
      match exported.get? inner.path with
      | some v => pure v
      | none => fun _ => .error (.absent inner.path)
    | .self => do
      let v ← inside (recur body inner)
      record inner v
      return v
  | .neighborFold default accumulator generator includeSelf => do
    let initial ← recur default ctx
    let combine ← recur accumulator ctx
    let index ← nextSlot
    fold recur initial combine generator includeSelf (ctx.nest (.foldHood index))

end Node

/-- The value of a program in a context, nesting at most `depth` evaluations. -/
def eval (depth : Nat) (expr : Expr) (ctx : Context) : Eval Value :=
  match depth with
  | 0 => fail ctx .depthExceeded
  | depth + 1 => step (eval depth) expr ctx

end Eval

/-- The outcome of a successful evaluation. -/
structure Evaluation where
  value : Value
  exported : Export

/-- How deep evaluations may nest. -/
def depthLimit : Nat := 1 <<< 20

/-- Evaluates a program in a context that reads the device's own values. -/
def evaluateIn (program : Expr) (ctx : Context) : Except EvalError Evaluation :=
  match Eval.eval depthLimit program ctx 0 with
  | .ok y => .ok ⟨y.value, .ofPuts y.puts y.value⟩
  | .error (.failed e) => .error e
  | .error (.absent path) => .error ⟨.unalignedRead, path⟩

/-- Evaluates a program for one round. -/
def evaluate (program : Expr) (inputs : RoundInputs) : Except EvalError Evaluation :=
  evaluateIn program (.root inputs)

end FieldCalculus
