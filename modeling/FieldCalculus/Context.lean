import FieldCalculus.Fault
import FieldCalculus.Sensors

/-!
Where an evaluation stands. A round fixes its inputs; a context adds the path, the
bindings, whose values are read, and whether what arises is recorded. Contexts are
never changed: entering a scope derives a new one.
-/

namespace FieldCalculus

/-- The latest export of each neighbor, as seen at the start of a round. -/
abbrev NeighborSnapshot := Dict DeviceId Export

/-- What a round is given. -/
structure RoundInputs where
  device : DeviceId
  sensors : Sensors
  state : DeviceState
  neighbors : NeighborSnapshot

/-- Whose values `nbr` reads. -/
inductive Focus where
  | self
  | neighbor (id : DeviceId) (exported : Export)

/-- A position inside the evaluation of a round. -/
structure Context where
  inputs : RoundInputs
  path : Path
  env : Env
  focus : Focus
  /-- Whether values that arise here belong in the device's export. -/
  recording : Bool

namespace Context

/-- The position of the whole program. -/
def root (inputs : RoundInputs) : Context := ⟨inputs, Path.root, [], .self, true⟩

/-- One slot deeper. -/
def nest (ctx : Context) (slot : Slot) : Context := { ctx with path := Path.push ctx.path slot }

def bind (ctx : Context) (name : String) (value : Value) : Context :=
  { ctx with env := Entries.insert name value ctx.env }

def withEnv (ctx : Context) (env : Env) : Context := { ctx with env := env }

/-- The same position reading the device's own values. Recording is inherited, so
a fold inside a neighbor-focused evaluation stays silent. -/
def toSelf (ctx : Context) : Context := { ctx with focus := .self }

/-- The same position reading a neighbor's values, without recording. -/
def focusedOn (ctx : Context) (id : DeviceId) (exported : Export) : Context :=
  { ctx with focus := .neighbor id exported, recording := false }

/-- The same position without recording. -/
def silent (ctx : Context) : Context := { ctx with recording := false }

def lookup (ctx : Context) (name : String) : Except Fault Value :=
  match Entries.find? name ctx.env with
  | some v => .ok v
  | none => .error (.unboundVariable name)

def sense (ctx : Context) (name : String) : Except Fault Value :=
  match ctx.inputs.sensors.sense name with
  | some v => .ok v
  | none => .error (.sensorUnavailable name)

/-- The device that relative sensors point to. -/
def target (ctx : Context) : DeviceId :=
  match ctx.focus with
  | .self => ctx.inputs.device
  | .neighbor id _ => id

def neighborSense (ctx : Context) (name : String) : Except Fault Value :=
  match ctx.inputs.sensors.neighborSense name ctx.target with
  | some v => .ok v
  | none => .error (.sensorUnavailable name)

/-- The value that an earlier round left at this path. -/
def remembered (ctx : Context) : Option Value := ctx.inputs.state.get? ctx.path

/-- The other devices whose export holds a value at this path, in order of their ids. -/
def alignedNeighbors (ctx : Context) : List (DeviceId × Export) :=
  ctx.inputs.neighbors.entries.filter fun (id, exported) =>
    id ≠ ctx.inputs.device && exported.contains ctx.path

end Context

end FieldCalculus
