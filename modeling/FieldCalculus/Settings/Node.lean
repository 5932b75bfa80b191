import FieldCalculus.Library
import FieldCalculus.Settings.Source

/-!
The settings of a node: built-in ones, under those of a file, under those of variables.
-/

namespace FieldCalculus

/-- The settings of a node. -/
structure NodeSettings where
  deviceId : Option String
  natsUrl : String
  subjectPrefix : String
  healthPort : Nat
  helloInterval : Nat
  /-- Peers that were not heard from for longer drop out of the neighbors. -/
  peerTtl : Nat
  /-- The program in the library to run if no file is named. -/
  program : String
  programFile : Option String
  sourceSensor : String
  sensors : Dict String Value
  pacing : Pacing

namespace NodeSettings

open Settings

/-- The built-in settings. -/
def defaults : List (String × Document) :=
  [("nats_url", .text "127.0.0.1:4222"), ("subject_prefix", .text "field"),
   ("health_port", .int 8080), ("hello_interval_ms", .int 1000), ("peer_ttl_ms", .int 5000),
   ("program", .text "hop_gradient"), ("source_sensor", .text "source"),
   ("driver.round_interval_ms", .int 200), ("driver.staleness_ms", .int 2000),
   ("driver.republish_every", .int 5)]

/-- The variable that names the settings file. -/
def fileVariable : String := "FIELD_CONFIG_FILE"

/-- What the names of all variables with settings start with. -/
def scope : String := "FIELD"

/-- All layers in one tree, if the file can be read. -/
def tree? (env : Variables) (files : Files) : Option Document := do
  let fromFile ← match env.value? fileVariable with
    | some path => fileEntries? files path
    | none => some []
  let base := layer (layer (.object []) defaults) fromFile
  some (layer base (variableEntries scope env))

/-- The pacing of rounds, as a table or as a list of its fields. -/
def pacing? (d : Document) : Option Pacing := do
  let (interval, staleness, republish) ← match d with
    | .object fields => do
      some (← fields.lookup "round_interval_ms", ← fields.lookup "staleness_ms",
        ← fields.lookup "republish_every")
    | .list (interval :: staleness :: republish :: _) => some (interval, staleness, republish)
    | _ => none
  some ⟨UInt64.ofNat (← nat? UInt64.size interval), UInt64.ofNat (← nat? UInt64.size staleness),
    UInt32.ofNat (← nat? UInt32.size republish)⟩

/-- The readings of sensors that settings give. -/
def sensors? : Option Document → Option (Dict String Value)
  | none => some .empty
  | some (.object fields) =>
    let readings := fields.mapM fun (field : String × Document) =>
      (sensor? field.2).map fun v => (field.1, v)
    readings.map Dict.ofList
  | some _ => none

/-- The settings in a tree, if every value is of its type. -/
def ofTree? (tree : Document) : Option NodeSettings := do
  let fields := table tree
  let text (name : String) : Option String := (fields.lookup name).bind text?
  let nat (name : String) (bound : Nat) : Option Nat := (fields.lookup name).bind (nat? bound)
  some {
    deviceId := ← optional? text? (fields.lookup "device_id")
    natsUrl := ← text "nats_url"
    subjectPrefix := ← text "subject_prefix"
    healthPort := ← nat "health_port" UInt16.size
    helloInterval := ← nat "hello_interval_ms" UInt64.size
    peerTtl := ← nat "peer_ttl_ms" UInt64.size
    program := ← text "program"
    programFile := ← optional? text? (fields.lookup "program_file")
    sourceSensor := ← text "source_sensor"
    sensors := ← sensors? (fields.lookup "sensors")
    pacing := ← (fields.lookup "driver").bind pacing? }

/-- The settings that variables and files make up. -/
def load (env : Variables) (files : Files) : Except SettingsFault NodeSettings :=
  match (tree? env files).bind ofTree? with
  | none => .error .malformed
  | some settings =>
    match settings.pacing.fault? with
    | some fault => .error (.pacing fault)
    | none => .ok settings

/-- The program to run: the one in the file if a file is named, otherwise the one of this
name in the library. -/
def resolveProgram (s : NodeSettings) (files : Files) : Except SettingsFault Expr :=
  match s.programFile with
  | some path => files.program path
  | none =>
    match Library.byName? s.program s.sourceSensor with
    | some program => .ok program
    | none => .error (.unknownProgram s.program)

end NodeSettings

end FieldCalculus
