import FieldCalculus.Network.Basic
import FieldCalculus.Settings.Source
import FieldCalculus.Library
import FieldCalculus.Value.Display

/-!
A simulation in a line or a grid, told by variables of the environment, and the text that
it prints: the field after every round, row by row.
-/

namespace FieldCalculus

/-- What to simulate. -/
structure Scenario where
  topology : String
  width : Nat
  height : Nat
  rounds : Nat
  program : String
  /-- The index of the device that is the source. -/
  source : Nat

/-- Why there is nothing to simulate. -/
inductive ScenarioFault where
  /-- A setting is not of its type. -/
  | malformed
  | unknownTopology (name : String)
  | unknownProgram (name : String)
deriving DecidableEq

/-- The fault in words, where they are not about the form of settings. -/
def ScenarioFault.message : ScenarioFault → String
  | malformed => "configuration"
  | unknownTopology name => "unknown topology `" ++ name ++ "`"
  | unknownProgram name => "unknown program `" ++ name ++ "`"

namespace Scenario

open Settings

/-- The built-in settings. -/
def defaults : List (String × Document) :=
  [("topology", .text "line"), ("width", .int 5), ("height", .int 1), ("rounds", .int 10),
   ("program", .text "hop_gradient"), ("source", .int 0)]

/-- What the names of all variables with settings start with. -/
def scope : String := "FIELD_SIM"

/-- The scenario that variables tell. -/
def load? (env : Variables) : Option Scenario := do
  let fields := table (layer (layer (.object []) defaults) (variableEntries scope env))
  let text (name : String) : Option String := (fields.lookup name).bind text?
  let nat (name : String) : Option Nat := (fields.lookup name).bind (nat? UInt64.size)
  some ⟨← text "topology", ← nat "width", ← nat "height", ← nat "rounds", ← text "program",
    ← nat "source"⟩

/-- The topology of a scenario. -/
def links (s : Scenario) : Except ScenarioFault Topology :=
  match s.topology with
  | "line" => .ok (.line s.width)
  | "grid" => .ok (.grid s.width s.height)
  | other => .error (.unknownTopology other)

/-- The sensor that tells a source from other devices. -/
def sourceSensor : String := "source"

/-- Each of some devices at distance zero from itself and one from those behind it. -/
def setRanges (net : Network) : List DeviceId → Network
  | [] => net
  | id :: rest =>
    setRanges ((id :: rest).foldl (fun net other =>
      net.setDistance "range" id other (.ofNat (if id = other then 0 else 1))) net) rest

/-- The network before its first round. -/
def start (s : Scenario) : Except ScenarioFault Network := do
  let topology ← s.links
  match Library.byName? s.program sourceSensor with
  | none => throw (.unknownProgram s.program)
  | some program =>
    let net := Network.simulation program topology default
    let net := net.setSensorAll sourceSensor (.bool false)
    let net := net.setSensorAll "value" (.number (.ofNat 0))
    let net := net.setSensorAll "region" (.bool true)
    let net := net.setSensor (Topology.device s.source) sourceSensor (.bool true)
    let net := net.setSensor (Topology.device s.source) "value" (.number (.ofNat 1))
    return setRanges net net.nodes.keys

/-- How many cells the field has. -/
def cellCount (s : Scenario) : Nat := if s.topology = "grid" then s.width * s.height else s.width

/-- The text of a value in the field. Both infinities look alike. -/
def cellText (v : Value) : String :=
  match v with
  | .number n => if n.isInfinite then "inf" else v.display
  | v => v.display

/-- The cells of the field. One without a value is a dash. -/
def cellTexts (s : Scenario) (net : Network) : List String :=
  (List.range s.cellCount).map fun i =>
    ((net.recorder.value? (Topology.device i)).map cellText).getD "-"

/-- The rows of a field. The fuel bounds their number. -/
def rows (width : Nat) : Nat → List String → List (List String)
  | 0, _ => []
  | _, [] => []
  | fuel + 1, cells => cells.take width :: rows width fuel (cells.drop width)

/-- What is printed after a round. -/
def roundText (s : Scenario) (round failed : Nat) (net : Network) : String :=
  let cells := s.cellTexts net
  let lines := (rows (max s.width 1) cells.length cells).map fun row =>
    "  " ++ "\t".intercalate row ++ "\n"
  "round " ++ toString round ++ " (" ++ toString failed ++ " failed)\n" ++ String.join lines

/-- Whether a round failed. -/
def isFailure : RoundOutcome → Bool
  | .error _ => true
  | .ok _ => false

/-- What is printed from a round on, for so many rounds. -/
def textFrom (s : Scenario) (round : Nat) (net : Network) : Nat → List String
  | 0 => []
  | rounds + 1 =>
    let (net, outcomes) := net.stepAll
    s.roundText round (outcomes.countP isFailure) net :: textFrom s (round + 1) net rounds

/-- All that is printed. -/
def text (s : Scenario) : Except ScenarioFault String := do
  return String.join (s.textFrom 0 (← s.start) s.rounds)

/-- What the variables make the simulator print. -/
def run (env : Variables) : Except ScenarioFault String :=
  match load? env with
  | none => .error .malformed
  | some s => s.text

end Scenario

end FieldCalculus
