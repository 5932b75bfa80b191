import FieldCalculus.Network.Table
import FieldCalculus.Network.Topology

/-!
The exchange between the devices of one process. Each endpoint has a table of what it
received. A direct hub writes into the tables of the recipients at once; a queued hub
lines messages up until the recipient collects them. Devices are addressed by id, and
an id may join again while an older endpoint of it is still there.
-/

namespace FieldCalculus

/-- How messages reach an endpoint. -/
inductive Delivery where
  | direct | queued
deriving DecidableEq, Inhabited

/-- A device's end of the exchange. -/
structure Endpoint where
  id : DeviceId
  table : NeighborTable
  /-- Messages not collected yet, oldest first. -/
  queue : List Message
  /-- Whether its owner still has it. -/
  held : Bool
deriving Inhabited

/-- Why a message was not handed over. -/
inductive ExchangeFault where
  /-- The recipient's endpoint is gone although its id is still addressed. -/
  | closed (recipient : DeviceId)
  | transport (reason : String)
deriving DecidableEq

/-- The endpoints by number, and the number that each id addresses. -/
structure Hub where
  delivery : Delivery
  staleness : Nat
  registry : Dict DeviceId Nat
  endpoints : Dict Nat Endpoint
  /-- The number of the next endpoint. -/
  next : Nat
deriving Inhabited

namespace Hub

def empty (delivery : Delivery) (staleness : Nat) : Hub := ⟨delivery, staleness, .empty, .empty, 0⟩

/-- A new endpoint, which the id addresses from now on. Its number is `hub.next`. -/
def join (hub : Hub) (id : DeviceId) : Hub :=
  { hub with
    registry := hub.registry.insert id hub.next
    endpoints := hub.endpoints.insert hub.next ⟨id, .empty hub.staleness, [], true⟩
    next := hub.next + 1 }

/-- Gives an endpoint up. A queued hub then stops addressing its id, even if a newer
endpoint holds it; a direct hub goes on writing into the table it knows. -/
def drop (hub : Hub) (endpoint : Nat) : Hub :=
  match hub.endpoints.find? endpoint with
  | none => hub
  | some e =>
    { hub with
      endpoints := hub.endpoints.insert endpoint { e with held := false }
      registry := match hub.delivery with
        | .direct => hub.registry
        | .queued => hub.registry.erase e.id }

/-- Stops addressing an id. -/
def leave (hub : Hub) (id : DeviceId) : Hub := { hub with registry := hub.registry.erase id }

/-- Applies a change to an endpoint. -/
def update (hub : Hub) (endpoint : Nat) (change : Endpoint → Endpoint) : Hub :=
  { hub with endpoints := hub.endpoints.modify endpoint change }

/-- The table of an endpoint. -/
def table (hub : Hub) (endpoint : Nat) : NeighborTable :=
  match hub.endpoints.find? endpoint with
  | some e => e.table
  | none => .empty hub.staleness

/-- Hands a message to one recipient; one that nobody holds is passed over. The count
is of messages stored in a table. -/
def deliver (hub : Hub) (message : Message) (now : Nat) (recipient : DeviceId) :
    Except ExchangeFault (Hub × Nat) :=
  match hub.registry.find? recipient with
  | none => .ok (hub, 0)
  | some endpoint =>
    match hub.delivery with
    | .direct => .ok (hub.update endpoint fun e => { e with table := e.table.store message now }, 1)
    | .queued =>
      if (hub.endpoints.find? endpoint).any Endpoint.held then
        .ok (hub.update endpoint fun e => { e with queue := e.queue ++ [message] }, 0)
      else .error (.closed recipient)

/-- The result of handing a message over: the hub with what was delivered, how many
messages were stored in tables, and the fault that ended the delivery, if any. -/
structure Publication where
  hub : Hub
  stored : Nat
  fault : Option ExchangeFault

/-- Hands a message to its recipients in order, up to the first that is closed. -/
def publish (hub : Hub) (message : Message) (now : Nat) : List DeviceId → Publication
  | [] => ⟨hub, 0, none⟩
  | recipient :: rest =>
    match hub.deliver message now recipient with
    | .error fault => ⟨hub, 0, some fault⟩
    | .ok (hub, stored) =>
      let after := publish hub message now rest
      { after with stored := stored + after.stored }

/-- How many messages wait for an endpoint. -/
def waiting (hub : Hub) (endpoint : Nat) : Nat :=
  match hub.endpoints.find? endpoint with
  | some e => e.queue.length
  | none => 0

/-- Moves the messages that wait for an endpoint into its table. -/
def collect (hub : Hub) (endpoint : Nat) (now : Nat) : Hub :=
  hub.update endpoint fun e => { e with table := e.table.storeAll e.queue now, queue := [] }

/-- Drops the stale entries of an endpoint's table. -/
def evict (hub : Hub) (endpoint : Nat) (now : Nat) : Hub :=
  hub.update endpoint fun e => { e with table := e.table.evictStale now }

end Hub

end FieldCalculus
