import FieldCalculus.Export

/-!
Who is whose neighbor. A topology is a symmetric relation on devices, kept once for
each end of a link; devices never decide it themselves.
-/

namespace FieldCalculus

/-- A set of devices. -/
abbrev DeviceSet := Dict DeviceId Unit

namespace DeviceSet

def ofList (ids : List DeviceId) : DeviceSet := Dict.ofList (ids.map fun id => (id, ()))

/-- The members in order. -/
def toList (s : DeviceSet) : List DeviceId := s.keys

end DeviceSet

/-- The neighbors of each device that is part of the network. -/
structure Topology where
  adjacency : Dict DeviceId DeviceSet
deriving Inhabited

namespace Topology

def empty : Topology := ⟨.empty⟩

/-- Makes a device part of the network; one that already is keeps its links. -/
def addDevice (t : Topology) (id : DeviceId) : Topology :=
  ⟨t.adjacency.upsert id .empty fun s => s⟩

/-- Links two devices, adding them where needed. A device cannot be linked to itself. -/
def link (t : Topology) (a b : DeviceId) : Topology :=
  if a = b then t
  else ⟨(t.adjacency.upsert a .empty fun s => s.insert b ()).upsert b .empty fun s => s.insert a ()⟩

/-- Cuts the link between two devices, which stay part of the network. -/
def unlink (t : Topology) (a b : DeviceId) : Topology :=
  ⟨(t.adjacency.modify a fun s => s.erase b).modify b fun s => s.erase a⟩

/-- The neighbors of a device; none for a stranger. -/
def neighbors (t : Topology) (id : DeviceId) : DeviceSet := (t.adjacency.find? id).getD .empty

/-- All devices in order. -/
def devices (t : Topology) : List DeviceId := t.adjacency.keys

/-- The name of a device in a line or a grid. -/
def device (index : Nat) : DeviceId := ⟨"d" ++ toString index⟩

/-- A chain of `n` devices. Devices come in with their links, so one alone stays out. -/
def line (n : Nat) : Topology :=
  (List.range (n - 1)).foldl (fun t i => t.link (device i) (device (i + 1))) empty

/-- The links of one cell of a grid, to the right and down. -/
def linkCell (width height row : Nat) (t : Topology) (col : Nat) : Topology :=
  let i := row * width + col
  let t := t.addDevice (device i)
  let t := if col + 1 < width then t.link (device i) (device (i + 1)) else t
  if row + 1 < height then t.link (device i) (device (i + width)) else t

/-- The links of the cells of one row. -/
def linkRow (width height : Nat) (t : Topology) (row : Nat) : Topology :=
  (List.range width).foldl (linkCell width height row) t

/-- A grid in which each cell is linked to those beside, above and below it; the cells
are numbered row by row. -/
def grid (width height : Nat) : Topology :=
  (List.range height).foldl (linkRow width height) empty

end Topology

end FieldCalculus
