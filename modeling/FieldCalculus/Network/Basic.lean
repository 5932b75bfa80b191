import FieldCalculus.Network.Hub
import FieldCalculus.Network.Peers
import FieldCalculus.Network.Recorder

/-!
A network of devices: what each of them holds, the hub between them, who is whose
neighbor, and the clock, which moves only when it is moved. A simulation is a network
over a direct hub with one device for each node of its topology.
-/

namespace FieldCalculus

/-- Where devices learn who their neighbors are. -/
inductive Neighborhood where
  | topology
  /-- The topology, with the device itself among its neighbors. -/
  | withSelf
  /-- A directory of peers for each device, with this time to live. -/
  | peers (ttl : Nat)
deriving Inhabited

/-- A device with all that belongs to it. -/
structure Node where
  device : Device
  sensors : SensorTable
  /-- The number of its endpoint. -/
  endpoint : Nat
  /-- Whether its link is down: the exchange takes nothing from it. -/
  linkDown : Bool
  directory : PeerDirectory
deriving Inhabited

/-- A network of devices. -/
structure Network where
  /-- The program of devices that have none of their own. -/
  program : Expr
  pacing : Pacing
  hub : Hub
  topology : Topology
  neighborhood : Neighborhood
  nodes : Dict DeviceId Node
  recorder : Recorder
  counters : Counters
  /-- Milliseconds since the start. -/
  now : Nat
  /-- Whether the node that runs the network takes requests. -/
  ready : Bool
deriving Inhabited

namespace Network

/-- A network without devices. -/
def empty (program : Expr) (pacing : Pacing) (delivery : Delivery) (topology : Topology)
    (neighborhood : Neighborhood) : Network :=
  ⟨program, pacing, .empty delivery pacing.staleness.toNat, topology, neighborhood, .empty, .empty,
   .zero, 0, false⟩

/-! ## Devices -/

/-- A new device with a program of its own. It replaces one of the same id, whose
endpoint is given up after the new one has joined. -/
def join (net : Network) (id : DeviceId) (program : Expr) : Network :=
  let ttl := match net.neighborhood with
    | .peers ttl => ttl
    | _ => 0
  let node : Node :=
    ⟨.start id program net.pacing, .empty, net.hub.next, false, .empty id ttl⟩
  let joined := net.hub.join id
  let hub := match net.nodes.find? id with
    | some old => joined.drop old.endpoint
    | none => joined
  { net with hub := hub, nodes := net.nodes.insert id node }

/-- A new device with the common program, which is made part of the topology. -/
def addDevice (net : Network) (id : DeviceId) : Network :=
  { net.join id net.program with topology := net.topology.addDevice id }

/-- Takes a device out and gives its endpoint up. -/
def drop (net : Network) (id : DeviceId) : Network :=
  match net.nodes.find? id with
  | none => net
  | some node => { net with hub := net.hub.drop node.endpoint, nodes := net.nodes.erase id }

/-- A simulation: one device for each node of a topology, all running one program. -/
def simulation (program : Expr) (topology : Topology) (pacing : Pacing) : Network :=
  topology.devices.foldl addDevice (empty program pacing .direct topology .topology)

/-! ## Surroundings -/

/-- Applies a change to a device, if it is there. -/
def updateNode (net : Network) (id : DeviceId) (change : Node → Node) : Network :=
  { net with nodes := net.nodes.modify id change }

/-- Applies a change to the sensors of a device. -/
def updateSensors (net : Network) (id : DeviceId) (change : SensorTable → SensorTable) : Network :=
  net.updateNode id fun n => { n with sensors := change n.sensors }

def setSensor (net : Network) (id : DeviceId) (name : String) (value : Value) : Network :=
  net.updateSensors id fun t => t.set name value

/-- Sets a sensor to one value on every device. -/
def setSensorAll (net : Network) (name : String) (value : Value) : Network :=
  { net with nodes := net.nodes.map fun n => { n with sensors := n.sensors.set name value } }

def setRelative (net : Network) (id : DeviceId) (name : String) (other : DeviceId)
    (value : Value) : Network :=
  net.updateSensors id fun t => t.setRelative name other value

/-- Sets the distance between two devices for both of them. -/
def setDistance (net : Network) (name : String) (a b : DeviceId) (distance : Number) : Network :=
  (net.setRelative a name b (.number distance)).setRelative b name a (.number distance)

def removeSensor (net : Network) (id : DeviceId) (name : String) : Network :=
  net.updateSensors id fun t => t.remove name

def link (net : Network) (a b : DeviceId) : Network :=
  { net with topology := net.topology.link a b }

def unlink (net : Network) (a b : DeviceId) : Network :=
  { net with topology := net.topology.unlink a b }

/-- Notes in a device's directory that a peer was heard from. -/
def observe (net : Network) (id peer : DeviceId) : Network :=
  net.updateNode id fun n => { n with directory := n.directory.observe peer net.now }

/-- Takes a device's link down, or puts it up again. -/
def setLinkDown (net : Network) (id : DeviceId) (down : Bool) : Network :=
  net.updateNode id fun n => { n with linkDown := down }

def advance (net : Network) (ms : Nat) : Network := { net with now := net.now + ms }

/-! ## Tables -/

/-- The table of a device. -/
def inbox (net : Network) (node : Node) : NeighborTable := net.hub.table node.endpoint

/-- Collects what waits for an endpoint, counting the messages. -/
def collect (net : Network) (endpoint : Nat) : Network :=
  { net with
    hub := net.hub.collect endpoint net.now
    counters := net.counters.addTraffic (net.hub.waiting endpoint) 0 }

/-- Drops the stale entries of a table, counting them. -/
def evict (net : Network) (endpoint : Nat) : Network :=
  { net with
    hub := net.hub.evict endpoint net.now
    counters := net.counters.addTraffic 0 ((net.hub.table endpoint).staleCount net.now) }

/-- Puts a message straight into the table of an endpoint. -/
def inject (net : Network) (endpoint : Nat) (message : Message) : Network :=
  { net with
    hub := net.hub.update endpoint fun e => { e with table := e.table.store message net.now }
    counters := net.counters.addTraffic 1 0 }

/-! ## Rounds -/

/-- What the topology or the directory answers to a device. -/
def announced (net : Network) (node : Node) : DeviceSet :=
  let id := node.device.id
  match net.neighborhood with
  | .topology => net.topology.neighbors id
  | .withSelf => (net.topology.neighbors id).insert id ()
  | .peers _ => node.directory.neighbors id net.now

/-- The neighbors of a device, never itself. -/
def neighborsOf (net : Network) (node : Node) : DeviceSet :=
  (net.announced node).erase node.device.id

/-- Hands an offer to the exchange. What counts as accepted is a delivery without a
fault over a link that is up. -/
def offer (net : Network) (node : Node) (recipients : DeviceSet) : Option Message → Network × Bool
  | none => (net, false)
  | some message =>
    if node.linkDown then (net, false)
    else
      let p := net.hub.publish message net.now recipients.toList
      ({ net with hub := p.hub, counters := net.counters.addTraffic p.stored 0 }, p.fault.isNone)

/-- One round of a device that is part of the network. -/
def stepNode (net : Network) (id : DeviceId) (node : Node) : Network × RoundOutcome :=
  let neighbors := net.neighborsOf node
  let net := (net.collect node.endpoint).evict node.endpoint
  let snapshot := (net.inbox node).snapshot neighbors.toList net.now
  match node.device.attempt node.sensors.sensors snapshot net.now with
  | (device, .error failure) =>
    ({ net with
      nodes := net.nodes.insert id { node with device := device }
      recorder := net.recorder.record (.error failure)
      counters := net.counters.addFailure failure.error.fault }, .error failure)
  | (device, .ok attempt) =>
    let (net, accepted) := net.offer node neighbors attempt.offer
    let (device, report) := device.conclude attempt accepted
    ({ net with
      nodes := net.nodes.insert id { node with device := device }
      recorder := net.recorder.record (.ok report)
      counters := net.counters.addRound attempt.offer.isSome report.published }, .ok report)

/-- One round of a device; nothing happens if it is not there. -/
def step (net : Network) (id : DeviceId) : Network × Option RoundOutcome :=
  match net.nodes.find? id with
  | none => (net, none)
  | some node =>
    let (net, outcome) := net.stepNode id node
    (net, some outcome)

/-- One round of each of the devices, in the order given. -/
def stepEach (net : Network) : List DeviceId → Network × List RoundOutcome
  | [] => (net, [])
  | id :: rest =>
    let (net, outcome) := net.step id
    let (net, outcomes) := stepEach net rest
    (net, outcome.toList ++ outcomes)

/-- One round of every device, in order of the ids. -/
def stepAll (net : Network) : Network × List RoundOutcome := net.stepEach net.nodes.keys

/-- So many rounds of every device. -/
def runRounds (net : Network) : Nat → Network
  | 0 => net
  | rounds + 1 => runRounds net.stepAll.1 rounds

end Network

end FieldCalculus
