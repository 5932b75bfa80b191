import FieldCalculus.Network.Basic
import FieldCalculus.Proofs.Hub
import FieldCalculus.Proofs.Topology

/-!
Steps of a network while no time passes. A step is described by what it changes for every
device, and all that is known about a run follows from these descriptions.
-/

namespace FieldCalculus

/-- The device is the same one, with the same settings. -/
structure Device.Same (d next : Device) : Prop where
  id : next.id = d.id
  program : next.program = d.program
  pacing : next.pacing = d.pacing

/-- What the wiring of a network knows of a device. -/
def Node.plug (node : Node) : DeviceId × Nat × Bool :=
  (node.device.id, node.endpoint, node.linkDown)

theorem Device.Same.plug {node : Node} {device : Device} (h : node.device.Same device) :
    Node.plug { node with device := device } = node.plug := by
  simp [Node.plug, h.id]

namespace Device

variable {d : Device} {sensors : Sensors} {snapshot : NeighborSnapshot}

theorem attempt_of_error {error : EvalError}
    (h : evaluate d.program ⟨d.id, sensors, d.state, snapshot⟩ = .error error) (now : Nat) :
    d.attempt sensors snapshot now =
      ({ d with rounds := d.rounds + 1, phases := d.phases.advance.advance.abort },
        .error ⟨d.id, d.rounds, error⟩) := by
  unfold attempt
  rw [h]

theorem attempt_of_ok {result : Evaluation}
    (h : evaluate d.program ⟨d.id, sensors, d.state, snapshot⟩ = .ok result) (now : Nat) :
    d.attempt sensors snapshot now =
      ({ d with
          rounds := d.rounds + 1
          phases := d.phases.advance.advance.advance
          state := d.state.absorb result.exported },
        .ok ⟨d.rounds, result, snapshot.size,
          if d.isChanged result.exported || d.isDue then
            some ⟨d.id, UInt64.ofNat d.rounds, .ofMillis now, result.exported⟩
          else none⟩) := by
  unfold attempt
  rw [h]

end Device
namespace Recorder

variable (r : Recorder) (id : DeviceId)

theorem value?_record_ok (report : RoundReport) : (r.record (.ok report)).value? id =
    if id = report.device then some report.value else r.value? id := by
  unfold value? view? record
  rw [Dict.find?_upsert]
  split
  · rfl
  · rfl

theorem value?_record_error (failure : RoundFailure) :
    (r.record (.error failure)).value? id = r.value? id := by
  unfold value? view? record
  rw [Dict.find?_upsert]
  split
  · rename_i heq
    subst heq
    cases hview : r.views.find? failure.device with
    | none => rfl
    | some view => rfl
  · rfl

end Recorder

namespace Network

/-- What the table of a device holds of a sender. -/
def received (net : Network) (id sender : DeviceId) : Option Export :=
  (net.nodes.find? id).bind fun node =>
    ((net.inbox node).entries.find? sender).map fun arrival => arrival.message.exported

/-- What the next round of a device is given. -/
def inputsOf (net : Network) (node : Node) : RoundInputs :=
  ⟨node.device.id, node.sensors.sensors, node.device.state,
    (net.inbox node).snapshot (net.neighborsOf node).toList net.now⟩

/-- The network is wired as a simulation is: every device is addressed at an endpoint of its
own, links are up and nothing is in flight. -/
structure Wired (net : Network) : Prop where
  direct : net.hub.delivery = .direct
  neighborhood : net.neighborhood = .topology
  device : ∀ id node, net.nodes.find? id = some node → node.device.id = id
  linkUp : ∀ id node, net.nodes.find? id = some node → node.linkDown = false
  registry : ∀ id, net.hub.registry.find? id = (net.nodes.find? id).map Node.endpoint
  distinct : ∀ a b x y, net.nodes.find? a = some x → net.nodes.find? b = some y →
    x.endpoint = y.endpoint → a = b
  present : ∀ id node, net.nodes.find? id = some node →
    (net.hub.endpoints.find? node.endpoint).isSome
  numbered : ∀ number, (net.hub.endpoints.find? number).isSome → number < net.hub.next
  settled : net.hub.Settled net.now

variable {net next : Network} {id : DeviceId} {node : Node}

theorem received_eq (hnode : net.nodes.find? id = some node) (sender : DeviceId) :
    net.received id sender = ((net.hub.table node.endpoint).entries.find? sender).map
      fun arrival => arrival.message.exported := by
  rw [received, hnode]
  rfl

theorem find?_of_plug
    (hplug : ∀ id, (next.nodes.find? id).map Node.plug = (net.nodes.find? id).map Node.plug)
    (hnode : next.nodes.find? id = some node) :
    ∃ before, net.nodes.find? id = some before ∧ before.plug = node.plug := by
  have hsame := hplug id
  rw [hnode, Option.map_some] at hsame
  exact Option.map_eq_some_iff.mp hsame.symm

/-- What was received depends on the hub and on the endpoints only. -/
theorem received_of_plug
    (hplug : ∀ id, (next.nodes.find? id).map Node.plug = (net.nodes.find? id).map Node.plug)
    (hhub : next.hub = net.hub) (id sender : DeviceId) :
    next.received id sender = net.received id sender := by
  cases hnode : next.nodes.find? id with
  | none =>
      have hsame := hplug id
      rw [hnode, Option.map_none, eq_comm, Option.map_eq_none_iff] at hsame
      rw [received, received, hnode, hsame]
      rfl
  | some node =>
      obtain ⟨before, hbefore, heq⟩ := find?_of_plug hplug hnode
      have hendpoint : before.endpoint = node.endpoint := congrArg (fun p => p.2.1) heq
      rw [received_eq hnode, received_eq hbefore, hhub, hendpoint]

/-- Where the topology decides, the neighbors of a device are those linked to it. -/
theorem mem_neighborsOf_topology (h : net.neighborhood = .topology) (node : Node)
    (other : DeviceId) : other ∈ (net.neighborsOf node).toList ↔
      net.topology.Linked node.device.id other ∧ other ≠ node.device.id := by
  unfold neighborsOf announced DeviceSet.toList
  rw [Dict.mem_keys, h]
  change (Dict.contains _ other) = true ↔ _
  rw [Topology.contains_erase]
  simp [Topology.Linked, and_comm]

namespace Wired

theorem table_current (h : net.Wired) (node : Node) : (net.inbox node).Current net.now := by
  unfold inbox Hub.table
  split
  · rename_i e he
    exact (h.settled _ e he).table
  · exact NeighborTable.Current.empty _

theorem mem_neighborsOf (h : net.Wired) (hnode : net.nodes.find? id = some node)
    (other : DeviceId) :
    other ∈ (net.neighborsOf node).toList ↔ net.topology.Linked id other ∧ other ≠ id := by
  rw [mem_neighborsOf_topology h.neighborhood, h.device id node hnode]

/-- A round is given the exports of the linked devices that were received. -/
theorem find?_snapshot (h : net.Wired) (hnode : net.nodes.find? id = some node)
    (other : DeviceId) :
    (net.inputsOf node).neighbors.find? other =
      if net.topology.Linked id other ∧ other ≠ id then net.received id other else none := by
  rw [inputsOf, (h.table_current node).find?_snapshot]
  simp only [h.mem_neighborsOf hnode, received, hnode]
  rfl

/-- A network stays wired when messages are received and nothing else moves. -/
theorem change (h : net.Wired) (hneighborhood : next.neighborhood = net.neighborhood)
    (hnow : next.now = net.now)
    (hplug : ∀ id, (next.nodes.find? id).map Node.plug = (net.nodes.find? id).map Node.plug)
    (hhub : next.hub = net.hub ∨
      ∃ message recipients, next.hub = net.hub.receive message net.now recipients) :
    next.Wired := by
  have hkept : next.hub.delivery = net.hub.delivery ∧ next.hub.registry = net.hub.registry ∧
      next.hub.next = net.hub.next ∧ (∀ number, (next.hub.endpoints.find? number).isSome =
        (net.hub.endpoints.find? number).isSome) ∧ next.hub.Settled net.now := by
    rcases hhub with hhub | ⟨message, recipients, hhub⟩
    · rw [hhub]
      exact ⟨rfl, rfl, rfl, fun _ => rfl, h.settled⟩
    · rw [hhub]
      refine ⟨rfl, rfl, rfl, ?_, h.settled.receive message recipients⟩
      intro number
      rw [Hub.find?_receive, Option.isSome_map]
  obtain ⟨hdelivery, hregistry, hnext, hpresent, hsettled⟩ := hkept
  have hbefore : ∀ id node, next.nodes.find? id = some node → ∃ before,
      net.nodes.find? id = some before ∧ before.device.id = node.device.id ∧
        before.endpoint = node.endpoint ∧ before.linkDown = node.linkDown := by
    intro id node hnode
    obtain ⟨before, hfound, heq⟩ := find?_of_plug hplug hnode
    simp only [Node.plug, Prod.mk.injEq] at heq
    exact ⟨before, hfound, heq.1, heq.2.1, heq.2.2⟩
  constructor
  case direct => rw [hdelivery, h.direct]
  case neighborhood => rw [hneighborhood, h.neighborhood]
  case device =>
    intro id node hnode
    obtain ⟨before, hfound, hdevice, -, -⟩ := hbefore id node hnode
    rw [← hdevice, h.device id before hfound]
  case linkUp =>
    intro id node hnode
    obtain ⟨before, hfound, -, -, hlink⟩ := hbefore id node hnode
    rw [← hlink, h.linkUp id before hfound]
  case registry =>
    intro id
    have hendpoints := congrArg (Option.map fun p : DeviceId × Nat × Bool => p.2.1) (hplug id)
    rw [Option.map_map, Option.map_map] at hendpoints
    rw [hregistry, h.registry]
    exact hendpoints.symm
  case distinct =>
    intro a b x y hx hy heq
    obtain ⟨x', hx', -, hxe, -⟩ := hbefore a x hx
    obtain ⟨y', hy', -, hye, -⟩ := hbefore b y hy
    refine h.distinct a b x' y' hx' hy' ?_
    rw [hxe, hye, heq]
  case present =>
    intro id node hnode
    obtain ⟨before, hfound, -, hendpoint, -⟩ := hbefore id node hnode
    rw [hpresent, ← hendpoint]
    exact h.present id before hfound
  case numbered =>
    intro number hnumber
    rw [hpresent] at hnumber
    rw [hnext]
    exact h.numbered number hnumber
  case settled =>
    rw [hnow]
    exact hsettled

/-- What a device publishes is received by the devices linked to it and by nobody else. -/
theorem received_receive (h : net.Wired) (hnode : net.nodes.find? id = some node)
    (hplug : ∀ id, (next.nodes.find? id).map Node.plug = (net.nodes.find? id).map Node.plug)
    {message : Message} (hsender : message.sender = id)
    (hhub : next.hub = net.hub.receive message net.now (net.neighborsOf node).toList)
    (other sender : DeviceId) :
    next.received other sender =
      if sender = id ∧ net.topology.Linked id other ∧ other ≠ id ∧ (net.nodes.find? other).isSome
        then some message.exported else net.received other sender := by
  cases hother : next.nodes.find? other with
  | none =>
      have hsame := hplug other
      rw [hother, Option.map_none, eq_comm, Option.map_eq_none_iff] at hsame
      rw [received, received, hother, hsame]
      simp
  | some after =>
      obtain ⟨before, hbefore, heq⟩ := find?_of_plug hplug hother
      have hendpoint : before.endpoint = after.endpoint := congrArg (fun p => p.2.1) heq
      obtain ⟨e, he⟩ := Option.isSome_iff_exists.mp (h.present other before hbefore)
      have haddressed : (∃ recipient ∈ (net.neighborsOf node).toList,
          net.hub.registry.find? recipient = some before.endpoint) ↔
            net.topology.Linked id other ∧ other ≠ id := by
        rw [← h.mem_neighborsOf hnode]
        constructor
        · rintro ⟨recipient, hmem, hfound⟩
          rw [h.registry, Option.map_eq_some_iff] at hfound
          obtain ⟨x, hx, hsame⟩ := hfound
          rw [← h.distinct recipient other x before hx hbefore hsame]
          exact hmem
        · intro hmem
          refine ⟨other, hmem, ?_⟩
          rw [h.registry, hbefore]
          rfl
      rw [received_eq hother, received_eq hbefore, ← hendpoint, hhub]
      unfold Hub.table
      rw [Hub.find?_receive, he, Option.map_some]
      simp only [haddressed, hbefore, Option.isSome_some, and_true]
      by_cases hlinked : net.topology.Linked id other ∧ other ≠ id
      · rw [if_pos hlinked, NeighborTable.find?_store, hsender]
        by_cases heq : sender = id
        · rw [if_pos heq, if_pos ⟨heq, hlinked⟩]
          rfl
        · rw [if_neg heq, if_neg (fun hall => heq hall.1)]
      · rw [if_neg hlinked, if_neg (fun hall => hlinked hall.2)]

end Wired

/-- A round of a device took a network to another: the device changed, `sent` went to the
devices linked to it, and `value` was noted. -/
structure Stepped (net : Network) (id : DeviceId) (node : Node) (device : Device)
    (sent : Option Export) (value : Option Value) (next : Network) : Prop where
  wired : next.Wired
  topology : next.topology = net.topology
  nodes : ∀ other, next.nodes.find? other =
    if other = id then some { node with device := device } else net.nodes.find? other
  received : ∀ other sender, next.received other sender =
    if sender = id ∧ net.topology.Linked id other ∧ other ≠ id ∧ (net.nodes.find? other).isSome
      then sent.or (net.received other sender) else net.received other sender
  value : ∀ other, next.recorder.value? other =
    if other = id then value.or (net.recorder.value? other) else net.recorder.value? other

/-- All that a step of a device can do. -/
inductive StepResult (net : Network) (id : DeviceId) (node : Node) (next : Network) : Prop where
  | failed {error : EvalError} {device : Device}
    (outcome : evaluate node.device.program (net.inputsOf node) = .error error)
    (same : node.device.Same device) (state : device.state = node.device.state)
    (lastExport : device.lastExport = node.device.lastExport)
    (quietRounds : device.quietRounds = node.device.quietRounds)
    (stepped : net.Stepped id node device none none next)
  | quiet {result : Evaluation} {device : Device}
    (outcome : evaluate node.device.program (net.inputsOf node) = .ok result)
    (same : node.device.Same device)
    (state : device.state = node.device.state.absorb result.exported)
    (unchanged : node.device.isChanged result.exported = false)
    (notDue : node.device.isDue = false)
    (lastExport : device.lastExport = node.device.lastExport)
    (quietRounds : device.quietRounds = node.device.quietRounds + 1)
    (stepped : net.Stepped id node device none (some result.value) next)
  | published {result : Evaluation} {device : Device}
    (outcome : evaluate node.device.program (net.inputsOf node) = .ok result)
    (same : node.device.Same device)
    (state : device.state = node.device.state.absorb result.exported)
    (lastExport : device.lastExport = some result.exported)
    (quietRounds : device.quietRounds = 0)
    (stepped : net.Stepped id node device (some result.exported) (some result.value) next)

theorem StepResult.stepped (h : net.StepResult id node next) :
    ∃ device sent value, net.Stepped id node device sent value next := by
  cases h with
  | failed _ _ _ _ _ hstepped => exact ⟨_, _, _, hstepped⟩
  | quiet _ _ _ _ _ _ _ hstepped => exact ⟨_, _, _, hstepped⟩
  | published _ _ _ _ _ hstepped => exact ⟨_, _, _, hstepped⟩

namespace Wired

/-- In a network whose hub is settled, collecting and evicting only counts. -/
theorem evict_collect (h : net.Wired) (endpoint : Nat) :
    ∃ counters, (net.collect endpoint).evict endpoint = { net with counters := counters } := by
  have hhub : ((net.collect endpoint).evict endpoint).hub = net.hub := by
    change (net.hub.collect endpoint net.now).evict endpoint net.now = net.hub
    rw [h.settled.collect, h.settled.evict]
  refine ⟨((net.collect endpoint).evict endpoint).counters, ?_⟩
  exact congrArg (fun hub => Network.mk net.program net.pacing hub net.topology net.neighborhood
    net.nodes net.recorder _ net.now net.ready) hhub

theorem plug_insert (hnode : net.nodes.find? id = some node) {device : Device}
    (hsame : node.device.Same device) (other : DeviceId) :
    ((net.nodes.insert id { node with device := device }).find? other).map Node.plug =
      (net.nodes.find? other).map Node.plug := by
  rw [Dict.find?_insert]
  split
  · rename_i heq
    rw [heq, hnode, Option.map_some, Option.map_some, hsame.plug]
  · rfl

/-- A round that sends nothing. -/
theorem stepped_unsent (h : net.Wired) (hnode : net.nodes.find? id = some node) {device : Device}
    (hsame : node.device.Same device) {recorder : Recorder} {value : Option Value}
    (hvalue : ∀ other, recorder.value? other =
      if other = id then value.or (net.recorder.value? other) else net.recorder.value? other)
    (counters : Counters) :
    net.Stepped id node device none value
      { net with
        counters := counters
        nodes := net.nodes.insert id { node with device := device }
        recorder := recorder } := by
  have hplug := plug_insert hnode hsame
  constructor
  case wired => exact h.change rfl rfl hplug (Or.inl rfl)
  case topology => rfl
  case nodes => exact fun other => Dict.find?_insert _ _ _ _
  case received =>
    intro other sender
    rw [Option.none_or, ite_self]
    apply received_of_plug
    · exact hplug
    · rfl
  case value => exact hvalue

/-- A round that publishes. -/
theorem stepped_sent (h : net.Wired) (hnode : net.nodes.find? id = some node) {device : Device}
    (hsame : node.device.Same device) {recorder : Recorder} {value : Option Value}
    (hvalue : ∀ other, recorder.value? other =
      if other = id then value.or (net.recorder.value? other) else net.recorder.value? other)
    (message : Message) (hsender : message.sender = id) (counters : Counters) :
    net.Stepped id node device (some message.exported) value
      { net with
        hub := net.hub.receive message net.now (net.neighborsOf node).toList
        counters := counters
        nodes := net.nodes.insert id { node with device := device }
        recorder := recorder } := by
  have hplug := plug_insert hnode hsame
  constructor
  case wired => exact h.change rfl rfl hplug (Or.inr ⟨message, _, rfl⟩)
  case topology => rfl
  case nodes => exact fun other => Dict.find?_insert _ _ _ _
  case received =>
    intro other sender
    rw [Option.some_or]
    apply h.received_receive hnode
    · exact hplug
    · exact hsender
    · rfl
  case value => exact hvalue

end Wired

/-- Over a direct hub an offer is always accepted while the link is up. -/
theorem offer_some (net : Network) (hdirect : net.hub.delivery = .direct)
    (hlink : node.linkDown = false) (recipients : DeviceSet) (message : Message) :
    ∃ counters, net.offer node recipients (some message) =
      ({ net with
        hub := net.hub.receive message net.now recipients.toList
        counters := counters }, true) := by
  obtain ⟨hhub, hfault⟩ := Hub.publish_direct hdirect message net.now recipients.toList
  refine ⟨net.counters.addTraffic (net.hub.publish message net.now recipients.toList).stored 0, ?_⟩
  unfold offer
  dsimp only
  rw [hlink, if_neg Bool.false_ne_true, hhub, hfault]
  rfl

namespace Wired

/-- Whatever a step does is one of the three. -/
theorem step (h : net.Wired) (hnode : net.nodes.find? id = some node) :
    net.StepResult id node (net.step id).1 := by
  obtain ⟨counters, hquiet⟩ := h.evict_collect node.endpoint
  have hid := h.device id node hnode
  have hinbox : Network.inbox { net with counters := counters } node = net.inbox node := rfl
  have hstep : (net.step id).1 = (Network.stepNode net id node).1 := by
    rw [Network.step, hnode]
  rw [hstep, stepNode, hquiet]
  dsimp only
  rw [hinbox]
  cases houtcome : evaluate node.device.program (net.inputsOf node) with
  | error error =>
      rw [Device.attempt_of_error houtcome]
      refine .failed houtcome ?_ ?_ ?_ ?_ (h.stepped_unsent hnode ?_ ?_ _)
      case refine_6 =>
        intro other
        rw [Recorder.value?_record_error, Option.none_or, ite_self]
      all_goals first | rfl | exact ⟨rfl, rfl, rfl⟩
  | ok result =>
      have hvalue : ∀ (report : RoundReport), report.device = node.device.id →
          report.value = result.value → ∀ other, (net.recorder.record (.ok report)).value? other =
            if other = id then (some result.value).or (net.recorder.value? other)
            else net.recorder.value? other := by
        intro report hdevice hresult other
        rw [Recorder.value?_record_ok, hdevice, hid, hresult, Option.some_or]
      rw [Device.attempt_of_ok houtcome]
      dsimp only
      by_cases hsend : node.device.isChanged result.exported || node.device.isDue
      · let message : Message := ⟨node.device.id, UInt64.ofNat node.device.rounds,
          .ofMillis net.now, result.exported⟩
        obtain ⟨traffic, hoffer⟩ := offer_some { net with counters := counters } h.direct
          (h.linkUp id node hnode) (net.neighborsOf node) message
        rw [if_pos hsend, hoffer]
        refine .published houtcome ?_ ?_ ?_ ?_
          (h.stepped_sent hnode ?_ (hvalue _ ?_ ?_) message hid _)
        all_goals first | rfl | exact ⟨rfl, rfl, rfl⟩
      · rw [if_neg hsend]
        rw [Bool.not_eq_true, Bool.or_eq_false_iff] at hsend
        refine .quiet houtcome ?_ ?_ hsend.1 hsend.2 ?_ ?_
          (h.stepped_unsent hnode ?_ (hvalue _ ?_ ?_) _)
        all_goals first | rfl | exact ⟨rfl, rfl, rfl⟩

/-- A step of a device whose evaluation succeeds reports its value. -/
theorem outcome_of_ok (h : net.Wired) (hnode : net.nodes.find? id = some node)
    {result : Evaluation}
    (hresult : evaluate node.device.program (net.inputsOf node) = .ok result) :
    ∃ report, (net.step id).2 = some (.ok report) ∧ report.value = result.value ∧
      report.exported = result.exported := by
  obtain ⟨counters, hquiet⟩ := h.evict_collect node.endpoint
  have hinbox : Network.inbox { net with counters := counters } node = net.inbox node := rfl
  rw [Network.step, hnode]
  dsimp only
  rw [stepNode, hquiet]
  dsimp only
  rw [hinbox, Device.attempt_of_ok hresult]
  exact ⟨_, rfl, rfl, rfl⟩

end Wired

theorem step_unknown (hnode : net.nodes.find? id = none) : (net.step id).1 = net := by
  rw [step, hnode]

end Network

end FieldCalculus
