import FieldCalculus.Context
import FieldCalculus.Network.Message

/-!
What a device has received. A table keeps the last message of each sender in order of
arrival, whatever round it carries, and an entry older than the staleness window reads
as absent. Times are in milliseconds; an arrival after the time of asking has age zero.
-/

namespace FieldCalculus

/-- A message and when it arrived. -/
structure Arrival where
  message : Message
  receivedAt : Nat
deriving Inhabited

/-- The last arrival from each sender. -/
structure NeighborTable where
  entries : Dict DeviceId Arrival
  staleness : Nat
deriving Inhabited

namespace NeighborTable

def empty (staleness : Nat) : NeighborTable := ⟨.empty, staleness⟩

/-- Whether an arrival still counts; the end of the window does. -/
def isFresh (t : NeighborTable) (a : Arrival) (now : Nat) : Bool :=
  now - a.receivedAt ≤ t.staleness

/-- Takes in a message, in place of what its sender sent before. -/
def store (t : NeighborTable) (message : Message) (now : Nat) : NeighborTable :=
  { t with entries := t.entries.insert message.sender ⟨message, now⟩ }

/-- Takes in messages in turn. -/
def storeAll (t : NeighborTable) (messages : List Message) (now : Nat) : NeighborTable :=
  messages.foldl (fun t m => t.store m now) t

/-- The fresh entry of a sender. -/
def fresh? (t : NeighborTable) (sender : DeviceId) (now : Nat) : Option Arrival :=
  (t.entries.find? sender).filter fun a => t.isFresh a now

/-- The fresh message of a sender. -/
def latest? (t : NeighborTable) (sender : DeviceId) (now : Nat) : Option Message :=
  (t.fresh? sender now).map Arrival.message

def size (t : NeighborTable) : Nat := t.entries.size

/-- The exports of those listed that have a fresh entry. -/
def snapshot (t : NeighborTable) (ids : List DeviceId) (now : Nat) : NeighborSnapshot :=
  Dict.ofList (ids.filterMap fun id => (t.latest? id now).map fun m => (id, m.exported))

/-- The table without the entries that are stale. -/
def evictStale (t : NeighborTable) (now : Nat) : NeighborTable :=
  { t with entries := t.entries.filter fun _ a => t.isFresh a now }

/-- How many entries are stale. -/
def staleCount (t : NeighborTable) (now : Nat) : Nat := t.size - (t.evictStale now).size

theorem size_evictStale_le (t : NeighborTable) (now : Nat) :
    (t.evictStale now).size ≤ t.size :=
  List.length_filter_le _ _

end NeighborTable

end FieldCalculus
