import FieldCalculus.Proofs.Steps

/-!
Runs of a simulation while no time passes: how it begins, what can happen to it, and what
many steps bring about.
-/

namespace FieldCalculus

namespace Hub

variable {hub : Hub}

/-- Nothing was ever received. -/
def Blank (hub : Hub) : Prop :=
  ∀ number e, hub.endpoints.find? number = some e → e.queue = [] ∧ e.table.entries = .empty

theorem Blank.settled (h : hub.Blank) (now : Nat) : hub.Settled now := by
  intro number e he
  obtain ⟨hqueue, htable⟩ := h number e he
  refine ⟨hqueue, ?_⟩
  intro sender arrival harrival
  rw [htable, Dict.find?_empty] at harrival
  cases harrival

theorem find?_join (hub : Hub) (id : DeviceId) (number : Nat) :
    (hub.join id).endpoints.find? number =
      if number = hub.next then some ⟨id, .empty hub.staleness, [], true⟩
      else hub.endpoints.find? number :=
  Dict.find?_insert _ _ _ _

theorem Blank.join (h : hub.Blank) (id : DeviceId) : (hub.join id).Blank := by
  intro number e he
  rw [find?_join] at he
  split at he
  · cases he
    exact ⟨rfl, rfl⟩
  · exact h number e he

theorem drop_direct (hdirect : hub.delivery = .direct) (endpoint : Nat) :
    (hub.drop endpoint).delivery = .direct ∧ (hub.drop endpoint).registry = hub.registry ∧
      (hub.drop endpoint).next = hub.next := by
  unfold drop
  split
  · exact ⟨hdirect, rfl, rfl⟩
  · rw [hdirect]
    exact ⟨rfl, rfl, rfl⟩

/-- An endpoint that is given up keeps its table. -/
theorem find?_drop (hub : Hub) (endpoint number : Nat) :
    (hub.drop endpoint).endpoints.find? number = (hub.endpoints.find? number).map
      fun e => if number = endpoint then { e with held := false } else e := by
  unfold drop
  cases hfound : hub.endpoints.find? endpoint with
  | none =>
      by_cases heq : number = endpoint
      · rw [heq, hfound]
        rfl
      · simp only [if_neg heq, Option.map_id']
  | some e =>
      dsimp only
      rw [Dict.find?_insert]
      by_cases heq : number = endpoint
      · rw [if_pos heq, heq, hfound, Option.map_some, if_pos rfl]
      · simp only [if_neg heq, Option.map_id']

theorem Blank.drop (h : hub.Blank) (endpoint : Nat) : (hub.drop endpoint).Blank := by
  intro number e he
  rw [find?_drop, Option.map_eq_some_iff] at he
  obtain ⟨before, hbefore, rfl⟩ := he
  split
  · exact h number before hbefore
  · exact h number before hbefore

end Hub

namespace Network

variable {net next : Network}

/-! ## The beginning -/

/-- No device of the network has done a round. -/
structure Fresh (net : Network) (program : Expr) (pacing : Pacing) : Prop where
  wired : net.Wired
  runs : net.program = program
  paced : net.pacing = pacing
  blank : net.hub.Blank
  device : ∀ id node, net.nodes.find? id = some node → node.device = .start id program pacing
  recorder : net.recorder = .empty

namespace Fresh

variable {program : Expr} {pacing : Pacing}

theorem empty (program : Expr) (pacing : Pacing) (topology : Topology) :
    (Network.empty program pacing .direct topology .topology).Fresh program pacing := by
  have hblank : (Network.empty program pacing .direct topology .topology).hub.Blank := by
    intro number e he
    cases he
  have hnobody : ∀ id, (Network.empty program pacing .direct topology .topology).nodes.find? id =
      none := fun _ => rfl
  refine ⟨⟨rfl, rfl, ?_, ?_, fun _ => rfl, ?_, ?_, ?_, hblank.settled _⟩, rfl, rfl, hblank, ?_,
    rfl⟩
  case refine_5 =>
    intro number hnumber
    cases hnumber
  all_goals simp [hnobody]

/-- What a new device does to the hub. -/
theorem hub_addDevice (h : net.Fresh program pacing) (id : DeviceId) :
    (net.addDevice id).hub.delivery = .direct ∧
      (net.addDevice id).hub.registry = net.hub.registry.insert id net.hub.next ∧
      (net.addDevice id).hub.next = net.hub.next + 1 ∧ (net.addDevice id).hub.Blank ∧
      ∀ number, ((net.addDevice id).hub.endpoints.find? number).isSome =
        (number = net.hub.next || (net.hub.endpoints.find? number).isSome) := by
  have hjoined : ∀ number, ((net.hub.join id).endpoints.find? number).isSome =
      (number = net.hub.next || (net.hub.endpoints.find? number).isSome) := by
    intro number
    rw [Hub.find?_join]
    split
    · rename_i heq
      simp [heq]
    · rename_i hne
      simp [hne]
  have hdirect : (net.hub.join id).delivery = .direct := h.wired.direct
  cases hold : net.nodes.find? id with
  | none =>
      have hhub : (net.addDevice id).hub = net.hub.join id := by
        simp only [addDevice, join, hold]
      rw [hhub]
      exact ⟨hdirect, rfl, rfl, h.blank.join id, hjoined⟩
  | some old =>
      have hhub : (net.addDevice id).hub = (net.hub.join id).drop old.endpoint := by
        simp only [addDevice, join, hold]
      obtain ⟨hdelivery, hregistry, hnext⟩ := Hub.drop_direct hdirect old.endpoint
      rw [hhub]
      refine ⟨hdelivery, hregistry, hnext, (h.blank.join id).drop _, ?_⟩
      intro number
      rw [Hub.find?_drop, Option.isSome_map, hjoined]

theorem find?_addDevice (net : Network) (id other : DeviceId) :
    (net.addDevice id).nodes.find? other =
      if other = id then some ⟨.start id net.program net.pacing, .empty, net.hub.next, false,
        .empty id (match net.neighborhood with
          | .peers ttl => ttl
          | _ => 0)⟩
      else net.nodes.find? other :=
  Dict.find?_insert _ _ _ _

theorem addDevice (h : net.Fresh program pacing) (id : DeviceId) :
    (net.addDevice id).Fresh program pacing := by
  obtain ⟨hdelivery, hregistry, hnext, hblank, hpresent⟩ := h.hub_addDevice id
  have hfind := find?_addDevice net id
  have hbelow : ∀ other node, net.nodes.find? other = some node →
      node.endpoint < net.hub.next := fun other node hnode =>
    h.wired.numbered _ (h.wired.present other node hnode)
  have hdevice : ∀ other node, (net.addDevice id).nodes.find? other = some node →
      node.device = .start other program pacing ∧ node.linkDown = false := by
    intro other node hnode
    rw [hfind] at hnode
    split at hnode
    · rename_i heq
      cases hnode
      rw [heq, h.runs, h.paced]
      exact ⟨rfl, rfl⟩
    · exact ⟨h.device other node hnode, h.wired.linkUp other node hnode⟩
  refine ⟨?_, h.runs, h.paced, hblank, fun other node hnode => (hdevice other node hnode).1,
    h.recorder⟩
  constructor
  case direct => exact hdelivery
  case neighborhood => exact h.wired.neighborhood
  case device =>
    intro other node hnode
    rw [(hdevice other node hnode).1]
    rfl
  case linkUp => exact fun other node hnode => (hdevice other node hnode).2
  case registry =>
    intro other
    rw [hregistry, Dict.find?_insert, hfind]
    split
    · rfl
    · exact h.wired.registry other
  case distinct =>
    intro a b x y hx hy heq
    rw [hfind] at hx hy
    split at hx <;> split at hy
    · rename_i ha hb
      rw [ha, hb]
    · cases hx
      exact absurd heq (Nat.ne_of_gt (hbelow b y hy))
    · cases hy
      exact absurd heq (Nat.ne_of_lt (hbelow a x hx))
    · exact h.wired.distinct a b x y hx hy heq
  case present =>
    intro other node hnode
    rw [hpresent]
    rw [hfind] at hnode
    split at hnode
    · cases hnode
      simp
    · simp [h.wired.present other node hnode]
  case numbered =>
    intro number hnumber
    rw [hpresent, Bool.or_eq_true, decide_eq_true_eq] at hnumber
    rw [hnext]
    rcases hnumber with hnew | hold
    · omega
    · have := h.wired.numbered number hold
      omega
  case settled => exact hblank.settled _

theorem addDevices (h : net.Fresh program pacing) (ids : List DeviceId) :
    (ids.foldl Network.addDevice net).Fresh program pacing := by
  induction ids generalizing net with
  | nil => exact h
  | cons id rest ih => exact ih (h.addDevice id)

theorem simulation (program : Expr) (topology : Topology) (pacing : Pacing) :
    (Network.simulation program topology pacing).Fresh program pacing :=
  (empty program pacing topology).addDevices _

theorem received (h : net.Fresh program pacing) (id sender : DeviceId) :
    net.received id sender = none := by
  cases hnode : net.nodes.find? id with
  | none => rw [Network.received, hnode, Option.bind_none]
  | some node =>
      rw [received_eq hnode]
      unfold Hub.table
      split
      · rename_i e he
        rw [(h.blank _ e he).2]
        rfl
      · rfl

end Fresh

theorem topology_addDevices {ids : List DeviceId} (h : ∀ id ∈ ids, id ∈ net.topology.devices) :
    (ids.foldl addDevice net).topology = net.topology := by
  induction ids generalizing net with
  | nil => rfl
  | cons id rest ih =>
      have hkept : (net.addDevice id).topology = net.topology :=
        Topology.addDevice_of_mem (h id List.mem_cons_self)
      rw [List.foldl_cons, ih, hkept]
      intro other hother
      rw [hkept]
      exact h other (List.mem_cons_of_mem _ hother)

theorem isSome_addDevices (ids : List DeviceId) (id : DeviceId) :
    ((ids.foldl addDevice net).nodes.find? id).isSome ↔
      id ∈ ids ∨ (net.nodes.find? id).isSome := by
  induction ids generalizing net with
  | nil => simp
  | cons other rest ih =>
      rw [List.foldl_cons, ih, Fresh.find?_addDevice, List.mem_cons]
      by_cases heq : id = other
      · simp [heq]
      · simp [heq]

theorem sensors_addDevices {ids : List DeviceId}
    (h : ∀ id node, net.nodes.find? id = some node → node.sensors = .empty) {id : DeviceId}
    {node : Node} (hnode : (ids.foldl addDevice net).nodes.find? id = some node) :
    node.sensors = .empty := by
  induction ids generalizing net with
  | nil => exact h id node hnode
  | cons first rest ih =>
      refine ih ?_ hnode
      intro other found hfound
      rw [Fresh.find?_addDevice] at hfound
      split at hfound
      · cases hfound
        rfl
      · exact h other found hfound

/-- At first no sensor reads anything. -/
theorem sensors_simulation {program : Expr} {topology : Topology} {pacing : Pacing} {id : DeviceId}
    {node : Node} (hnode : (simulation program topology pacing).nodes.find? id = some node) :
    node.sensors = .empty := by
  refine sensors_addDevices ?_ hnode
  intro other found hfound
  cases hfound

/-- A simulation has the topology that it was made for. -/
theorem topology_simulation (program : Expr) (topology : Topology) (pacing : Pacing) :
    (simulation program topology pacing).topology = topology := by
  rw [simulation, topology_addDevices]
  · rfl
  · exact fun id hid => hid

/-- The devices of a simulation are those of its topology. -/
theorem isSome_simulation (program : Expr) (topology : Topology) (pacing : Pacing)
    (id : DeviceId) :
    ((simulation program topology pacing).nodes.find? id).isSome ↔ id ∈ topology.devices := by
  rw [simulation, isSome_addDevices]
  simp [empty]

theorem keys_simulation (program : Expr) (topology : Topology) (pacing : Pacing) :
    (simulation program topology pacing).nodes.keys = topology.devices := by
  apply (simulation program topology pacing).nodes.ordered.keys_ext topology.adjacency.ordered
  intro id
  exact Dict.mem_keys.trans (isSome_simulation program topology pacing id)

/-! ## What can happen -/

/-- An event while no time passes. -/
inductive Event where
  | step (id : DeviceId)
  | setSensor (id : DeviceId) (name : String) (value : Value)
  | removeSensor (id : DeviceId) (name : String)
  | link (a b : DeviceId)
  | unlink (a b : DeviceId)

/-- The network after an event. -/
def react (net : Network) : Event → Network
  | .step id => (net.step id).1
  | .setSensor id name value => net.setSensor id name value
  | .removeSensor id name => net.removeSensor id name
  | .link a b => net.link a b
  | .unlink a b => net.unlink a b

/-- The network after events in turn. -/
def after (net : Network) (events : List Event) : Network := events.foldl react net

theorem after_append (net : Network) (first second : List Event) :
    net.after (first ++ second) = (net.after first).after second :=
  List.foldl_append

theorem after_invariant (good : Network → Prop) (hreact : ∀ net event, good net →
    good (net.react event)) (h : good net) (events : List Event) : good (net.after events) := by
  induction events generalizing net with
  | nil => exact h
  | cons event rest ih => exact ih (hreact net event h)

/-- Sensors and links changed, and nothing that a round leaves behind. -/
structure Edited (net next : Network) : Prop where
  wired : next.Wired
  devices : ∀ id, (next.nodes.find? id).map Node.device = (net.nodes.find? id).map Node.device
  received : ∀ id sender, next.received id sender = net.received id sender
  recorder : next.recorder = net.recorder
  built : net.topology.Built → next.topology.Built

namespace Edited

theorem refl (h : net.Wired) : net.Edited net :=
  ⟨h, fun _ => rfl, fun _ _ => rfl, rfl, fun hbuilt => hbuilt⟩

theorem trans {last : Network} (h : net.Edited next) (hlast : next.Edited last) :
    net.Edited last := by
  constructor
  case wired => exact hlast.wired
  case devices => exact fun id => (hlast.devices id).trans (h.devices id)
  case received => exact fun id sender => (hlast.received id sender).trans (h.received id sender)
  case recorder => exact hlast.recorder.trans h.recorder
  case built => exact fun hbuilt => hlast.built (h.built hbuilt)

theorem isSome (h : net.Edited next) (id : DeviceId) :
    (next.nodes.find? id).isSome = (net.nodes.find? id).isSome := by
  have hdevice := congrArg Option.isSome (h.devices id)
  rw [Option.isSome_map, Option.isSome_map] at hdevice
  exact hdevice

end Edited

namespace Wired

theorem edited_updateSensors (h : net.Wired) (id : DeviceId)
    (change : SensorTable → SensorTable) : net.Edited (net.updateSensors id change) := by
  have hfind : ∀ other, (net.updateSensors id change).nodes.find? other =
      if other = id then (net.nodes.find? id).map fun n => { n with sensors := change n.sensors }
      else net.nodes.find? other := fun other => Dict.find?_modify _ _ _ _
  have hplug : ∀ other, ((net.updateSensors id change).nodes.find? other).map Node.plug =
      (net.nodes.find? other).map Node.plug := by
    intro other
    rw [hfind]
    split
    · rename_i heq
      rw [heq, Option.map_map]
      rfl
    · rfl
  refine ⟨h.change rfl rfl hplug (Or.inl rfl), ?_, received_of_plug hplug rfl, rfl, fun hb => hb⟩
  intro other
  rw [hfind]
  split
  · rename_i heq
    rw [heq, Option.map_map]
    rfl
  · rfl

theorem edited_topology (h : net.Wired) {topology : Topology}
    (hbuilt : net.topology.Built → topology.Built) :
    net.Edited { net with topology := topology } := by
  have hplug : ∀ id, (net.nodes.find? id).map Node.plug = (net.nodes.find? id).map Node.plug :=
    fun _ => rfl
  refine ⟨h.change rfl rfl hplug (Or.inl rfl), fun _ => rfl, ?_, rfl, hbuilt⟩
  exact received_of_plug hplug rfl

/-- Every event is a step or an edit. -/
theorem react (h : net.Wired) (event : Event) :
    (∃ id, net.react event = (net.step id).1) ∨ net.Edited (net.react event) := by
  cases event with
  | step id => exact Or.inl ⟨id, rfl⟩
  | setSensor id name value => exact Or.inr (h.edited_updateSensors id fun t => t.set name value)
  | removeSensor id name => exact Or.inr (h.edited_updateSensors id fun t => t.remove name)
  | link a b => exact Or.inr (h.edited_topology fun hbuilt => hbuilt.link a b)
  | unlink a b => exact Or.inr (h.edited_topology fun hbuilt => hbuilt.unlink a b)

end Wired

/-! ## Many steps -/

section Steps

variable {good : Network → Prop}

theorem stepEach_append (net : Network) (first second : List DeviceId) :
    (net.stepEach (first ++ second)).1 = ((net.stepEach first).1.stepEach second).1 := by
  induction first generalizing net with
  | nil => rfl
  | cons id rest ih => exact ih (net.step id).1

theorem stepEach_invariant (hstep : ∀ net id, good net → good (net.step id).1) (h : good net)
    (schedule : List DeviceId) : good (net.stepEach schedule).1 := by
  induction schedule generalizing net with
  | nil => exact h
  | cons id rest ih => exact ih (hstep net id h)

/-- What a device's own step brings about and the steps of others leave alone holds of every
device that has stepped. -/
theorem stepEach_reaches (reached : Network → DeviceId → Prop)
    (hstep : ∀ net id, good net → good (net.step id).1)
    (hown : ∀ net id, good net → reached (net.step id).1 id)
    (hkept : ∀ net id other, good net → other ≠ id → reached net other →
      reached (net.step id).1 other)
    (h : good net) {schedule : List DeviceId} {id : DeviceId} (hid : id ∈ schedule) :
    reached (net.stepEach schedule).1 id := by
  have hstays : ∀ net, good net → reached net id → ∀ rest, reached (net.stepEach rest).1 id := by
    intro net hnet hreached rest
    induction rest generalizing net with
    | nil => exact hreached
    | cons next rest ih =>
        refine ih _ (hstep net next hnet) ?_
        by_cases heq : id = next
        · rw [← heq]
          exact hown net id hnet
        · exact hkept net next id hnet heq hreached
  induction schedule generalizing net with
  | nil => cases hid
  | cons next rest ih =>
      rcases List.mem_cons.mp hid with heq | hrest
      · rw [heq] at hstays ⊢
        exact hstays _ (hstep net next h) (hown net next h) rest
      · exact ih (hstep net next h) hrest

/-- Segments count up a stage each. -/
theorem stepEach_flatten {stage : Nat → Network → Prop} {segments : List (List DeviceId)}
    (hsegment : ∀ segment ∈ segments, ∀ n net, stage n net →
      stage (n + 1) (net.stepEach segment).1) {n : Nat} (h : stage n net) :
    stage (n + segments.length) (net.stepEach segments.flatten).1 := by
  induction segments generalizing n net with
  | nil => exact h
  | cons segment rest ih =>
      rw [List.flatten_cons, stepEach_append, List.length_cons, ← Nat.add_assoc, Nat.add_right_comm]
      refine ih ?_ (hsegment segment List.mem_cons_self n net h)
      intro other hother
      exact hsegment other (List.mem_cons_of_mem _ hother)

end Steps

end Network

end FieldCalculus
