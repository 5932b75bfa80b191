import FieldCalculus.Proofs.Distance
import FieldCalculus.Proofs.Lifetime
import FieldCalculus.Proofs.Suppression

/-!
What the devices of a simulation hold of each other while time passes. A device that does a round
hears what it holds of those linked to it and drops what is stale; those linked to it receive what
it offers. Nothing else changes what devices hold.
-/

namespace FieldCalculus

/-- Setting a sensor again changes nothing. -/
theorem SensorTable.set_set (t : SensorTable) (name : String) (value : Value) :
    (t.set name value).set name value = t.set name value := by
  have hown : ((t.own.insert name value).insert name value) = t.own.insert name value := by
    apply Dict.ext_find?
    intro other
    rw [Dict.find?_insert, Dict.find?_insert]
    split <;> rfl
  exact congrArg (fun own => SensorTable.mk own t.relative) hown

namespace Network

variable {net : Network} {id other sender : DeviceId} {node : Node} {act : Act}
  {keeps : (SensorTable → SensorTable) → Prop}

/-- A simulation at any time: whatever is offered is received at once by the devices that the
topology links to the sender. -/
structure Live (net : Network) : Prop where
  orderly : net.Orderly
  direct : net.hub.delivery = .direct
  neighborhood : net.neighborhood = .topology
  registry : ∀ id, net.hub.registry.find? id = (net.nodes.find? id).map Node.endpoint

/-- The last message that a device holds from another. -/
def receipt (net : Network) (id sender : DeviceId) : Option Arrival :=
  (net.nodes.find? id).bind fun node => net.hub.held node.endpoint sender

theorem receipt_of_found (hnode : net.nodes.find? id = some node) (sender : DeviceId) :
    net.receipt id sender = net.hub.held node.endpoint sender := by
  rw [receipt, hnode, Option.bind_some]

/-- Where devices stay, what they hold depends on the hub alone. -/
theorem receipt_of_plug {next : Network}
    (hplug : (next.nodes.find? id).map Node.plug = (net.nodes.find? id).map Node.plug)
    (sender : DeviceId) : next.receipt id sender =
      (net.nodes.find? id).bind fun node => next.hub.held node.endpoint sender := by
  cases hfound : net.nodes.find? id with
  | none =>
      rw [hfound, Option.map_none, Option.map_eq_none_iff] at hplug
      rw [receipt, hplug, Option.bind_none]
  | some node =>
      rw [hfound, Option.map_some, Option.map_eq_some_iff] at hplug
      obtain ⟨after, hafter, hsame⟩ := hplug
      have hendpoint : after.endpoint = node.endpoint := congrArg (fun p => p.2.1) hsame
      rw [receipt_of_found hafter, hendpoint, Option.bind_some]

/-- Besides rounds and devices that come and go, nothing changes what devices hold. -/
theorem receipt_perform (net : Network) (hact : act.rearranges) (id sender : DeviceId) :
    (net.perform act).receipt id sender = net.receipt id sender := by
  have hrearranged := net.perform_rearranges hact
  rw [receipt_of_plug (hrearranged.plug id), receipt]
  unfold Hub.held
  rw [hrearranged.endpoints]

/-- Whether an act takes no device away. -/
def Act.keepsDevices : Act → Bool
  | .drop _ | .leave _ => false
  | _ => true

theorem Act.Settled.keepsDevices (hact : act.Settled keeps) : act.keepsDevices := by
  cases act with
  | drop _ => cases hact
  | leave _ => cases hact
  | _ => rfl

/-- The network after a step: the device has done a round, and the exchange has dealt with its
offer. -/
theorem perform_step (hnode : net.nodes.find? id = some node) :
    ∃ counters, net.perform (.step id) = { net with
      hub := net.exchanged node
      nodes := net.nodes.insert id
        { node with device := (node.device.round (net.settingOf node)).1 }
      recorder := net.recorder.record (node.device.round (net.settingOf node)).2
      counters := counters } := by
  refine ⟨net.counted node, ?_⟩
  rw [perform, step_eq hnode]

namespace Live

/-- A simulation stays one whatever happens to it, while no device is taken away. -/
theorem keep (h : net.Live) (hact : act.keepsDevices) : (net.perform act).Live := by
  constructor
  case orderly => exact h.orderly.perform act
  case direct => exact (h.orderly.perform_hub act).1.trans h.direct
  case neighborhood => exact (h.orderly.surroundings_perform act).1.trans h.neighborhood
  case registry =>
    intro id
    cases hmoves : act.moves id with
    | false =>
        have hendpoint := congrArg (Option.map fun p : DeviceId × Nat × Bool => p.2.1)
          (h.orderly.plug_perform hmoves)
        rw [Option.map_map, Option.map_map] at hendpoint
        rw [h.orderly.registry_perform h.direct hmoves, h.registry]
        exact hendpoint.symm
    | true =>
        cases act with
        | join other program pacing =>
            rw [registry_perform_join h.direct, find?_perform_join, h.registry]
            split <;> rfl
        | drop _ => cases hact
        | leave _ => cases hact
        | _ => cases hmoves

theorem perform (h : net.Live) (hact : act.Settled keeps) : (net.perform act).Live :=
  h.keep hact.keepsDevices

theorem run (h : net.Live) {acts : List Act} (hacts : ∀ act ∈ acts, act.keepsDevices) :
    (net.run acts).Live :=
  run_invariant (fun act => act.keepsDevices) (fun net _ => net.Live) h
    (fun _ _ _ hlive hact => hlive.keep hact) hacts

theorem simulation (program : Expr) (topology : Topology) (pacing : Pacing) :
    (Network.simulation program topology pacing).Live :=
  have hfresh := Fresh.simulation program topology pacing
  ⟨.simulation program topology pacing, hfresh.wired.direct, hfresh.wired.neighborhood,
    hfresh.wired.registry⟩

theorem simulationWith (program : Expr) (topology : Topology) (pacing : Pacing) (name : String)
    (reading : DeviceId → Value) :
    (Network.simulationWith program topology pacing name reading).Live := by
  refine after_invariant Live ?_ (.simulation program topology pacing) _
  intro net event h
  have hperform : ∀ act : Act, act.Settled (fun _ => True) → (net.perform act).Live :=
    fun act hact => h.perform hact
  cases event with
  | step id => exact hperform (.step id) trivial
  | setSensor id name value => exact hperform (.changeSensors id fun t => t.set name value) trivial
  | removeSensor id name => exact hperform (.changeSensors id fun t => t.remove name) trivial
  | link a b => exact hperform (.link a b) trivial
  | unlink a b => exact hperform (.unlink a b) trivial

/-- A device hears what it holds of those linked to it, unless that is stale. -/
theorem find?_heard (h : net.Live) (hnode : net.nodes.find? id = some node) (other : DeviceId) :
    (net.heard node).find? other =
      if net.topology.Linked id other ∧ other ≠ id then
        ((net.receipt id other).filter net.counts).map fun arrival => arrival.message.exported
      else none := by
  rw [heard, NeighborTable.find?_snapshot, h.orderly.latest?_swept h.direct,
    latest?_inbox h.orderly.window, ← receipt_of_found hnode, Option.map_map]
  simp only [mem_neighborsOf_topology h.neighborhood, h.orderly.device id node hnode]
  rfl

/-- A device offers to the endpoints of those linked to it. -/
theorem addressed_iff (h : net.Live) (hnode : net.nodes.find? id = some node) {reached : Node}
    (hreached : net.nodes.find? other = some reached) :
    (∃ recipient ∈ (net.neighborsOf node).toList,
        net.hub.registry.find? recipient = some reached.endpoint) ↔
      net.topology.Linked id other ∧ other ≠ id := by
  have hneighbor : other ∈ (net.neighborsOf node).toList ↔
      net.topology.Linked id other ∧ other ≠ id := by
    rw [mem_neighborsOf_topology h.neighborhood, h.orderly.device id node hnode]
  rw [← hneighbor]
  constructor
  · rintro ⟨recipient, hmem, hfound⟩
    rw [h.registry, Option.map_eq_some_iff] at hfound
    obtain ⟨found, hfound, hsame⟩ := hfound
    rw [← h.orderly.distinct recipient other found reached hfound hreached hsame]
    exact hmem
  · intro hmem
    refine ⟨other, hmem, ?_⟩
    rw [h.registry, hreached]
    rfl

theorem exchanged_eq (h : net.Live) (hnode : net.nodes.find? id = some node) :
    net.exchanged node = match net.offered node with
      | none => (net.swept node.endpoint).hub
      | some message => (net.swept node.endpoint).hub.receive message net.now
          (net.neighborsOf node).toList := by
  rw [exchanged]
  cases net.offered node with
  | none => rfl
  | some message =>
      have hdirect : (net.swept node.endpoint).hub.delivery = .direct :=
        (net.swept_alike node.endpoint).delivery.trans h.direct
      obtain ⟨counters, hoffer⟩ := offer_some _ hdirect (h.orderly.linkUp id node hnode)
        (net.neighborsOf node) message
      rw [hoffer]
      rfl

/-- What stands at an endpoint once another device, or the device itself, has done a round. -/
theorem held_exchanged (h : net.Live) (hnode : net.nodes.find? id = some node) {reached : Node}
    (hreached : net.nodes.find? other = some reached) (sender : DeviceId) :
    (net.exchanged node).held reached.endpoint sender =
      if sender = id ∧ net.topology.Linked id other ∧ other ≠ id then
        ((net.offered node).map fun message => ⟨message, net.now⟩).or
          (net.hub.held reached.endpoint sender)
      else if other = id then (net.hub.held reached.endpoint sender).filter net.counts
      else net.hub.held reached.endpoint sender := by
  have hswept : (net.swept node.endpoint).hub.held reached.endpoint sender =
      if other = id then (net.hub.held reached.endpoint sender).filter net.counts
      else net.hub.held reached.endpoint sender := by
    have howner : reached.endpoint = node.endpoint ↔ other = id := by
      constructor
      · exact h.orderly.distinct other id reached node hreached hnode
      · rintro rfl
        rw [hnode, Option.some.injEq] at hreached
        rw [hreached]
    rw [h.orderly.held_sweep h.direct]
    simp only [howner]
  have haddressed := h.addressed_iff hnode hreached
  rw [h.exchanged_eq hnode]
  cases hoffered : net.offered node with
  | none =>
      dsimp only
      rw [hswept, Option.map_none, Option.none_or]
      by_cases hown : other = id
      · rw [if_pos hown, if_neg fun hall => hall.2.2 hown]
      · rw [if_neg hown, ite_self]
  | some message =>
      -- A message replaces what is held of its sender at the endpoints that it reaches, and the
      -- endpoint of the sender itself is not one of them.
      have hsender : message.sender = id :=
        (evaluated_of_offered hoffered).1.trans (h.orderly.device id node hnode)
      dsimp only
      rw [Option.map_some, Option.some_or]
      by_cases hlinked : net.topology.Linked id other ∧ other ≠ id
      · by_cases hown : sender = id
        · obtain ⟨recipient, hmem, hfound⟩ := haddressed.mpr hlinked
          have hpresent := h.orderly.present other reached hreached
          rw [← (net.swept_alike node.endpoint).present] at hpresent
          rw [if_pos ⟨hown, hlinked⟩, hown, ← hsender]
          exact Hub.held_receive_recipient hmem hfound hpresent
        · have hother : sender ≠ message.sender := fun heq => hown (heq.trans hsender)
          rw [Hub.held_receive_other hother, hswept]
          simp only [hown, false_and, if_false]
      · have hbeside : ¬∃ recipient ∈ (net.neighborsOf node).toList,
            (net.swept node.endpoint).hub.registry.find? recipient = some reached.endpoint :=
          fun hreaches => hlinked (haddressed.mp hreaches)
        have hunreached : ¬(sender = id ∧ net.topology.Linked id other ∧ other ≠ id) :=
          fun hall => hlinked hall.2
        rw [Hub.held_receive_beside hbeside, hswept, if_neg hunreached]

/-- A round changes what is held of the device by those linked to it, and what is stale at the
device itself. -/
theorem receipt_step (h : net.Live) (hnode : net.nodes.find? id = some node)
    (other sender : DeviceId) :
    (net.perform (.step id)).receipt other sender =
      if sender = id ∧ net.topology.Linked id other ∧ other ≠ id ∧
          (net.nodes.find? other).isSome then
        ((net.offered node).map fun message => ⟨message, net.now⟩).or (net.receipt other sender)
      else if other = id then (net.receipt other sender).filter net.counts
      else net.receipt other sender := by
  have hstays : (Act.step id).moves other = false := rfl
  have hhub : (net.perform (.step id)).hub = net.exchanged node := by
    obtain ⟨counters, hstep⟩ := perform_step hnode
    rw [hstep]
  rw [receipt_of_plug (h.orderly.plug_perform hstays), hhub, receipt]
  cases hfound : net.nodes.find? other with
  | none => simp
  | some reached =>
      rw [Option.bind_some, Option.bind_some, h.held_exchanged hnode hfound]
      simp only [Option.isSome_some, and_true]

/-- The exchange takes whatever a device offers. -/
theorem accepts (h : net.Live) (hnode : net.nodes.find? id = some node) :
    net.accepts node = true :=
  h.orderly.accepts_direct h.direct hnode

end Live

/-! ## The beginning -/

section Beginning

variable {program : Expr} {topology : Topology} {pacing : Pacing} {name : String}
  {reading : DeviceId → Value}

theorem now_addDevices (ids : List DeviceId) : (ids.foldl addDevice net).now = net.now := by
  induction ids generalizing net with
  | nil => rfl
  | cons first rest ih => exact ih

theorem surroundings_placeReadings (net : Network) (ids : List DeviceId) :
    (net.after (placeReadings name reading ids)).hub = net.hub ∧
      (net.after (placeReadings name reading ids)).now = net.now := by
  induction ids generalizing net with
  | nil => exact ⟨rfl, rfl⟩
  | cons first rest ih => exact ih (net.setSensor first name (reading first))

theorem find?_placeReadings (net : Network) (ids : List DeviceId) (id : DeviceId) :
    (net.after (placeReadings name reading ids)).nodes.find? id =
      (net.nodes.find? id).map fun node =>
        if id ∈ ids then { node with sensors := node.sensors.set name (reading id) } else node := by
  induction ids generalizing net with
  | nil => simp [placeReadings, after]
  | cons first rest ih =>
      refine (ih (net.setSensor first name (reading first))).trans ?_
      have hfind : (net.setSensor first name (reading first)).nodes.find? id =
          if id = first then (net.nodes.find? first).map fun node =>
            { node with sensors := node.sensors.set name (reading first) }
          else net.nodes.find? id := Dict.find?_modify _ _ _ _
      rw [hfind]
      by_cases heq : id = first
      · rw [if_pos heq, ← heq, Option.map_map]
        congr 1
        funext node
        by_cases hrest : id ∈ rest
        · simp [hrest, SensorTable.set_set]
        · simp [hrest]
      · simp [heq]

theorem now_simulationWith : (simulationWith program topology pacing name reading).now = 0 := by
  rw [simulationWith, (surroundings_placeReadings _ _).2, simulation, now_addDevices]
  rfl

theorem staleness_simulationWith :
    (simulationWith program topology pacing name reading).hub.staleness =
      pacing.staleness.toNat := by
  rw [simulationWith, (surroundings_placeReadings _ _).1, simulation, addDevices_eq_run]
  exact ((Orderly.empty _ _ _ _ _).run_hub _).2

theorem receipt_simulationWith (id sender : DeviceId) :
    (simulationWith program topology pacing name reading).receipt id sender = none := by
  have hblank := (Fresh.simulation program topology pacing).blank
  have hheld : ∀ number, (simulation program topology pacing).hub.held number sender = none := by
    intro number
    rw [Hub.held]
    cases he : (simulation program topology pacing).hub.endpoints.find? number with
    | none => rfl
    | some e => rw [Option.bind_some, (hblank number e he).2, Dict.find?_empty]
  rw [receipt, simulationWith, (surroundings_placeReadings _ _).1]
  simp only [hheld, Option.bind_fun_none]

/-- At first a device has done no round, and it reads the one sensor. -/
theorem find?_simulationWith {id : DeviceId} {node : Node}
    (hnode : (simulationWith program topology pacing name reading).nodes.find? id = some node) :
    node.device = .start id program pacing ∧
      node.sensors = SensorTable.empty.set name (reading id) := by
  have hpresent := (isSome_simulationWith program pacing name reading id).mp (by rw [hnode]; rfl)
  rw [simulationWith, find?_placeReadings, Option.map_eq_some_iff] at hnode
  obtain ⟨before, hbefore, rfl⟩ := hnode
  rw [if_pos hpresent]
  refine ⟨(Fresh.simulation program topology pacing).device id before hbefore, ?_⟩
  dsimp only
  rw [sensors_simulation hbefore]

end Beginning

end Network

end FieldCalculus
