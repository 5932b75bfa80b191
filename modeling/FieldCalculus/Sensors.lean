import FieldCalculus.Export

/-!
Sensors. An evaluation asks for readings by name; a reading that is not there is a
fault of the program that asks and is never made up.
-/

namespace FieldCalculus

/-- The readings of one round. -/
structure Sensors where
  sense : String → Option Value
  /-- A reading towards a neighbor, or towards the device itself. -/
  neighborSense : String → DeviceId → Option Value

/-- A table of readings. -/
structure SensorTable where
  own : Dict String Value
  relative : Dict String (Dict DeviceId Value)
deriving Inhabited

namespace SensorTable

def empty : SensorTable := ⟨.empty, .empty⟩

def set (t : SensorTable) (name : String) (value : Value) : SensorTable :=
  { t with own := t.own.insert name value }

def setRelative (t : SensorTable) (name : String) (neighbor : DeviceId) (value : Value) :
    SensorTable :=
  { t with relative := t.relative.upsert name .empty fun d => d.insert neighbor value }

def remove (t : SensorTable) (name : String) : SensorTable :=
  { t with own := t.own.erase name }

/-- What a table reads. -/
def sensors (t : SensorTable) : Sensors where
  sense name := t.own.find? name
  neighborSense name neighbor := (t.relative.find? name).bind fun d => d.find? neighbor

end SensorTable

end FieldCalculus
