import FieldCalculus.Proofs.Simulation
import Mathlib.Combinatorics.SimpleGraph.Metric

/-!
How many hops a device is away from the nearest source. Hops go along the links between
devices that are there; a device that only the topology knows passes nothing on.
-/

namespace FieldCalculus

section Graph

variable {V : Type} {G : SimpleGraph V} {sources : Set V} {x y : V}

/-- The hops to the nearest of the sources; infinitely many if none can be reached. -/
noncomputable def hopsTo (G : SimpleGraph V) (sources : Set V) (x : V) : ℕ∞ :=
  ⨅ source : sources, G.edist x source

theorem hopsTo_of_mem (h : x ∈ sources) : hopsTo G sources x = 0 := by
  have hself : hopsTo G sources x ≤ G.edist x x := iInf_le (fun s : sources => G.edist x s) ⟨x, h⟩
  rw [SimpleGraph.edist_self] at hself
  exact le_antisymm hself bot_le

/-- Neighbors are at most one hop further away. -/
theorem hopsTo_le_of_adj (h : G.Adj x y) : hopsTo G sources x ≤ hopsTo G sources y + 1 := by
  unfold hopsTo
  rw [ENat.iInf_add]
  refine le_iInf ?_
  intro source
  have hhop : G.edist x y = 1 := SimpleGraph.edist_eq_one_iff_adj.mpr h
  calc ⨅ source : sources, G.edist x source
      ≤ G.edist x source := iInf_le _ source
    _ ≤ G.edist x y + G.edist y source := SimpleGraph.edist_triangle
    _ = G.edist y source + 1 := by rw [hhop, add_comm]

/-- A finite distance is the one from some source. -/
theorem exists_source_of_hopsTo {n : ℕ} (h : hopsTo G sources x = n) :
    ∃ source ∈ sources, G.edist x source = n := by
  have hnonempty : Nonempty sources := by
    by_contra hempty
    rw [not_nonempty_iff] at hempty
    rw [hopsTo, iInf_of_empty] at h
    exact ENat.top_ne_natCast _ h
  obtain ⟨⟨source, hmem⟩, hsource⟩ := ciInf_mem fun s : sources => G.edist x s
  exact ⟨source, hmem, hsource.trans h⟩

theorem hopsTo_eq_zero_iff : hopsTo G sources x = 0 ↔ x ∈ sources := by
  constructor
  · intro h
    obtain ⟨source, hmem, hsource⟩ := exists_source_of_hopsTo (n := 0) h
    rw [Nat.cast_zero, SimpleGraph.edist_eq_zero_iff] at hsource
    rw [hsource]
    exact hmem
  · exact hopsTo_of_mem

/-- Away from the sources, some neighbor is one hop nearer. -/
theorem exists_adj_of_hopsTo {n : ℕ} (h : hopsTo G sources x = (n + 1 : ℕ)) :
    ∃ y, G.Adj x y ∧ hopsTo G sources y = n := by
  obtain ⟨source, hmem, hsource⟩ := exists_source_of_hopsTo h
  obtain ⟨walk, hwalk⟩ := SimpleGraph.exists_walk_of_edist_eq_coe hsource
  cases walk with
  | nil => cases hwalk
  | @cons _ y _ hadj rest =>
      rw [SimpleGraph.Walk.length_cons, Nat.add_right_cancel_iff] at hwalk
      have hle : hopsTo G sources y ≤ n := by
        refine (iInf_le (fun s : sources => G.edist y s) ⟨source, hmem⟩).trans ?_
        rw [← hwalk]
        exact SimpleGraph.edist_le rest
      have hge : ((n + 1 : ℕ) : ℕ∞) ≤ hopsTo G sources y + 1 := h ▸ hopsTo_le_of_adj hadj
      rw [Nat.cast_add, Nat.cast_one] at hge
      exact ⟨y, hadj, le_antisymm hle ((ENat.add_le_add_iff_right ENat.one_ne_top).mp hge)⟩

/-- On the way to another device, some neighbor is one hop nearer. -/
theorem exists_adj_of_edist_le {z : V} {n : ℕ} (h : G.edist x z ≤ (n + 1 : ℕ)) (hne : x ≠ z) :
    ∃ y, G.Adj x y ∧ G.edist y z ≤ n := by
  have hfinite : G.edist x z ≠ ⊤ := (h.trans_lt (ENat.natCast_lt_top _)).ne
  obtain ⟨walk, hwalk⟩ := SimpleGraph.exists_walk_of_edist_ne_top hfinite
  cases walk with
  | nil => exact absurd rfl hne
  | @cons _ y _ hadj rest =>
      rw [← hwalk, SimpleGraph.Walk.length_cons, Nat.cast_le, Nat.add_le_add_iff_right] at h
      exact ⟨y, hadj, (SimpleGraph.edist_le rest).trans (Nat.cast_le.mpr h)⟩

theorem hopsTo_of_adj_source (hadj : G.Adj x y) (hy : y ∈ sources) (hx : x ∉ sources) :
    hopsTo G sources x = (1 : ℕ) := by
  have hle : hopsTo G sources x ≤ 1 := by
    have hhop : hopsTo G sources x ≤ hopsTo G sources y + 1 := hopsTo_le_of_adj hadj
    rw [hopsTo_of_mem hy, zero_add] at hhop
    exact hhop
  have hne : hopsTo G sources x ≠ 0 := fun hzero => hx (hopsTo_eq_zero_iff.mp hzero)
  rw [Nat.cast_one]
  exact le_antisymm hle (Order.one_le_iff_ne_zero.mpr hne)

theorem hopsTo_of_lonely (halone : ∀ y, ¬G.Adj x y) (hx : x ∉ sources) :
    hopsTo G sources x = ⊤ := by
  by_contra hfinite
  obtain ⟨n, hn⟩ := ENat.ne_top_iff_exists.mp hfinite
  cases n with
  | zero => exact hx (hopsTo_eq_zero_iff.mp hn.symm)
  | succ n =>
      obtain ⟨y, hadj, -⟩ := exists_adj_of_hopsTo hn.symm
      exact halone y hadj

end Graph

/-- The links of a topology as a graph. -/
def Topology.graph (t : Topology) : SimpleGraph DeviceId := SimpleGraph.fromRel t.Linked

theorem Topology.adj_iff {t : Topology} (h : t.Built) {a b : DeviceId} :
    t.graph.Adj a b ↔ t.Linked a b := by
  rw [graph, SimpleGraph.fromRel_adj]
  constructor
  · rintro ⟨-, hlinked | hlinked⟩
    · exact hlinked
    · exact h.symm hlinked
  · intro hlinked
    refine ⟨?_, Or.inl hlinked⟩
    rintro rfl
    exact h.irrefl hlinked

namespace Network

variable {net next : Network}

/-- What a device reads from a sensor of its own. -/
def reads (net : Network) (id : DeviceId) (name : String) : Option Value :=
  (net.nodes.find? id).bind fun node => node.sensors.sensors.sense name

/-- The devices at which a sensor reads true. -/
def sources (net : Network) (name : String) : Set DeviceId :=
  {id | net.reads id name = some (.bool true)}

/-- The devices that are there and the links between them. -/
def graph (net : Network) : SimpleGraph DeviceId :=
  SimpleGraph.fromRel fun a b =>
    (net.nodes.find? a).isSome ∧ (net.nodes.find? b).isSome ∧ net.topology.Linked a b

instance (net : Network) : DecidableRel net.graph.Adj := fun a b =>
  inferInstanceAs (Decidable (a ≠ b ∧ (_ ∨ _)))

/-- How many hops a device is away from the nearest source. -/
noncomputable def distance (net : Network) (name : String) (id : DeviceId) : ℕ∞ :=
  hopsTo net.graph (net.sources name) id

theorem adj_iff (hbuilt : net.topology.Built) {a b : DeviceId} :
    net.graph.Adj a b ↔
      (net.nodes.find? a).isSome ∧ (net.nodes.find? b).isSome ∧ net.topology.Linked a b := by
  rw [graph, SimpleGraph.fromRel_adj]
  constructor
  · rintro ⟨-, h | ⟨hb, ha, hlinked⟩⟩
    · exact h
    · exact ⟨ha, hb, hbuilt.symm hlinked⟩
  · intro h
    refine ⟨?_, Or.inl h⟩
    rintro rfl
    exact hbuilt.irrefl h.2.2

/-- A round is given what was received from the neighbors in the graph. -/
theorem Wired.find?_inputsOf {id : DeviceId} {node : Node} (h : net.Wired)
    (hbuilt : net.topology.Built) (hnode : net.nodes.find? id = some node)
    (hknown : ∀ y e, net.received id y = some e → (net.nodes.find? y).isSome) (y : DeviceId)
    (e : Export) : (net.inputsOf node).neighbors.find? y = some e ↔
      net.graph.Adj id y ∧ net.received id y = some e := by
  rw [h.find?_snapshot hnode, Network.adj_iff hbuilt, hnode]
  constructor
  · intro hfound
    split at hfound
    · rename_i hlinked
      exact ⟨⟨rfl, hknown y e hfound, hlinked.1⟩, hfound⟩
    · cases hfound
  · rintro ⟨⟨-, -, hlinked⟩, hreceived⟩
    rw [if_pos, hreceived]
    refine ⟨hlinked, ?_⟩
    rintro rfl
    exact hbuilt.irrefl hlinked

theorem Stepped.isSome {id : DeviceId} {node : Node} {device : Device} {sent : Option Export}
    {value : Option Value} (h : net.Stepped id node device sent value next)
    (hnode : net.nodes.find? id = some node) (other : DeviceId) :
    (next.nodes.find? other).isSome = (net.nodes.find? other).isSome := by
  rw [h.nodes]
  split
  · rename_i heq
    rw [heq, hnode]
    rfl
  · rfl

theorem Stepped.reads {id : DeviceId} {node : Node} {device : Device} {sent : Option Export}
    {value : Option Value} (h : net.Stepped id node device sent value next)
    (hnode : net.nodes.find? id = some node) (other : DeviceId) (name : String) :
    next.reads other name = net.reads other name := by
  unfold Network.reads
  rw [h.nodes]
  split
  · rename_i heq
    rw [heq, hnode]
    rfl
  · rfl

theorem Stepped.graph {id : DeviceId} {node : Node} {device : Device} {sent : Option Export}
    {value : Option Value} (h : net.Stepped id node device sent value next)
    (hnode : net.nodes.find? id = some node) : next.graph = net.graph := by
  unfold Network.graph
  simp only [h.isSome hnode, h.topology]

/-- Steps move no device and no source. -/
theorem Wired.step_surroundings (h : net.Wired) (id : DeviceId) :
    (net.step id).1.graph = net.graph ∧
      (∀ other name, (net.step id).1.reads other name = net.reads other name) ∧
      (∀ other, ((net.step id).1.nodes.find? other).isSome = (net.nodes.find? other).isSome) := by
  cases hnode : net.nodes.find? id with
  | none =>
      rw [step_unknown hnode]
      exact ⟨rfl, fun _ _ => rfl, fun _ => rfl⟩
  | some node =>
      obtain ⟨device, sent, value, hstepped⟩ := (h.step hnode).stepped
      exact ⟨hstepped.graph hnode, hstepped.reads hnode, hstepped.isSome hnode⟩

/-- Nothing that happens adds or removes a device. -/
theorem Wired.isSome_react (h : net.Wired) (event : Event) (id : DeviceId) :
    ((net.react event).nodes.find? id).isSome = (net.nodes.find? id).isSome := by
  rcases h.react event with ⟨stepped, heq⟩ | hedited
  · rw [heq]
    exact (h.step_surroundings stepped).2.2 id
  · exact hedited.isSome id

/-- While all devices of the topology are there, hops go along its links. -/
theorem graph_eq (hbuilt : net.topology.Built)
    (hpresent : ∀ id, (net.nodes.find? id).isSome ↔ id ∈ net.topology.devices) :
    net.graph = net.topology.graph := by
  ext a b
  rw [adj_iff hbuilt, Topology.adj_iff hbuilt, hpresent, hpresent]
  constructor
  · exact fun h => h.2.2
  · intro hlinked
    exact ⟨Topology.mem_devices hlinked, Topology.mem_devices (hbuilt.symm hlinked), hlinked⟩

theorem reads_link (net : Network) (a b id : DeviceId) (name : String) :
    (net.link a b).reads id name = net.reads id name := rfl

theorem reads_setSensor (net : Network) (id other : DeviceId) (name : String) (value : Value) :
    (net.setSensor id name value).reads other name =
      if other = id ∧ (net.nodes.find? id).isSome then some value else net.reads other name := by
  have hfind : (net.setSensor id name value).nodes.find? other =
      if other = id then (net.nodes.find? id).map fun n =>
        { n with sensors := n.sensors.set name value }
      else net.nodes.find? other := Dict.find?_modify _ _ _ _
  unfold reads
  rw [hfind]
  by_cases heq : other = id
  · rw [if_pos heq, heq]
    cases hnode : net.nodes.find? id with
    | none => simp
    | some node =>
        simp only [Option.map_some, Option.bind_some, Option.isSome_some, and_self, if_true]
        exact Dict.find?_insert_self _ _ _
  · rw [if_neg heq, if_neg fun hboth => heq hboth.1]

/-! ## Sensors that are set once -/

/-- Sets a sensor on each of some devices. -/
def placeReadings (name : String) (reading : DeviceId → Value) (ids : List DeviceId) :
    List Event :=
  ids.map fun id => .setSensor id name (reading id)

variable {name : String} {reading : DeviceId → Value}

theorem edited_placeReadings (h : net.Wired) (ids : List DeviceId) :
    net.Edited (net.after (placeReadings name reading ids)) := by
  induction ids generalizing net with
  | nil => exact .refl h
  | cons id rest ih =>
      have hfirst : net.Edited (net.setSensor id name (reading id)) :=
        h.edited_updateSensors id fun t => t.set name (reading id)
      exact hfirst.trans (ih hfirst.wired)

theorem topology_placeReadings (net : Network) (ids : List DeviceId) :
    (net.after (placeReadings name reading ids)).topology = net.topology := by
  induction ids generalizing net with
  | nil => rfl
  | cons id rest ih => exact ih (net.setSensor id name (reading id))

theorem reads_placeReadings (h : net.Wired) (ids : List DeviceId) (id : DeviceId) :
    (net.after (placeReadings name reading ids)).reads id name =
      if id ∈ ids ∧ (net.nodes.find? id).isSome then some (reading id) else net.reads id name := by
  induction ids generalizing net with
  | nil => simp [placeReadings, after]
  | cons first rest ih =>
      have hedited : net.Edited (net.setSensor first name (reading first)) :=
        h.edited_updateSensors first fun t => t.set name (reading first)
      change ((net.setSensor first name _).after (placeReadings name reading rest)).reads id name =
        _
      rw [ih hedited.wired, hedited.isSome, reads_setSensor]
      by_cases heq : id = first
      · subst heq
        by_cases hpresent : (net.nodes.find? id).isSome <;> simp [hpresent]
      · simp [heq]

/-- A simulation in which a sensor was set on every device and no device has stepped. -/
def simulationWith (program : Expr) (topology : Topology) (pacing : Pacing) (name : String)
    (reading : DeviceId → Value) : Network :=
  (simulation program topology pacing).after (placeReadings name reading topology.devices)

section SimulationWith

variable {topology : Topology} (program : Expr) (pacing : Pacing) (name : String)
  (reading : DeviceId → Value)

theorem edited_simulationWith : (simulation program topology pacing).Edited
    (simulationWith program topology pacing name reading) :=
  edited_placeReadings (Fresh.simulation program topology pacing).wired _

theorem isSome_simulationWith (id : DeviceId) :
    ((simulationWith program topology pacing name reading).nodes.find? id).isSome ↔
      id ∈ topology.devices := by
  rw [(edited_simulationWith program pacing name reading).isSome, isSome_simulation]

theorem topology_simulationWith :
    (simulationWith program topology pacing name reading).topology = topology := by
  rw [simulationWith, topology_placeReadings, topology_simulation]

theorem graph_simulationWith (hbuilt : topology.Built) :
    (simulationWith program topology pacing name reading).graph = topology.graph := by
  have hsame : (simulationWith program topology pacing name reading).topology = topology :=
    topology_simulationWith program pacing name reading
  rw [graph_eq, hsame]
  · rw [hsame]
    exact hbuilt
  · intro id
    rw [hsame, isSome_simulationWith]

theorem reads_simulationWith (id : DeviceId) :
    (simulationWith program topology pacing name reading).reads id name =
      if id ∈ topology.devices then some (reading id) else none := by
  have hpresent := isSome_simulation program topology pacing id
  rw [simulationWith, reads_placeReadings (Fresh.simulation program topology pacing).wired]
  by_cases hid : id ∈ topology.devices
  · rw [if_pos hid, if_pos ⟨hid, hpresent.mpr hid⟩]
  · rw [if_neg hid, if_neg fun hboth => hid hboth.1, reads,
      Option.not_isSome_iff_eq_none.mp fun hsome => hid (hpresent.mp hsome)]
    rfl

end SimulationWith

end Network

end FieldCalculus
