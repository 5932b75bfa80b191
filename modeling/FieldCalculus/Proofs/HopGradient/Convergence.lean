import FieldCalculus.Proofs.HopGradient.Stages

/-!
The hop gradient finds the hop distances: from a fresh start, where no value is ever too low,
and from any state that edits and steps have left behind.
-/

namespace FieldCalculus.HopGradient

variable {topology : Topology} {source : String} {pacing : Pacing} {isSource : DeviceId → Bool}
  {net : Network}

/-! ## A fresh start -/

/-- Tells each of the devices whether it is a source. -/
def placeSources (source : String) (isSource : DeviceId → Bool) (ids : List DeviceId) :
    List Network.Event :=
  ids.map fun id => .setSensor id source (.bool (isSource id))

theorem edited_placeSources (h : net.Wired) (ids : List DeviceId) :
    net.Edited (net.after (placeSources source isSource ids)) :=
  Network.edited_placeReadings h ids

theorem reads_placeSources (h : net.Wired) (ids : List DeviceId) (id : DeviceId) :
    (net.after (placeSources source isSource ids)).reads id source =
      if id ∈ ids ∧ (net.nodes.find? id).isSome then some (.bool (isSource id))
      else net.reads id source :=
  Network.reads_placeReadings h ids id

/-- A simulation of the hop gradient in which no device has stepped. -/
def freshStart (source : String) (isSource : DeviceId → Bool) (topology : Topology)
    (pacing : Pacing) : Network :=
  (Network.simulation (Library.hopGradient source) topology pacing).after
    (placeSources source isSource topology.devices)

/-- The sources of a topology. -/
def sourcesOf (isSource : DeviceId → Bool) (topology : Topology) : Set DeviceId :=
  {id | id ∈ topology.devices ∧ isSource id}

/-- A fresh start is right at the first stage, and no value is too low. -/
theorem stage_freshStart (hbuilt : topology.Built) (source : String)
    (isSource : DeviceId → Bool) (pacing : Pacing) :
    Stage source pacing topology.devices (hopsTo topology.graph (sourcesOf isSource topology))
      True 0 (freshStart source isSource topology pacing) := by
  have hfresh := Network.Fresh.simulation (Library.hopGradient source) topology pacing
  have hedited : (Network.simulation (Library.hopGradient source) topology pacing).Edited
      (freshStart source isSource topology pacing) :=
    Network.edited_simulationWith _ pacing source _
  have hsound := (sound_simulation hbuilt source pacing).edited hedited
  have hpresent : ∀ id, ((freshStart source isSource topology pacing).nodes.find? id).isSome ↔
      id ∈ topology.devices := Network.isSome_simulationWith _ pacing source _
  have hreads : ∀ id, (freshStart source isSource topology pacing).reads id source =
      if id ∈ topology.devices then some (.bool (isSource id)) else none :=
    Network.reads_simulationWith _ pacing source _
  have hnone : ∀ id, latest (freshStart source isSource topology pacing) id = none := by
    intro id
    rw [latest_edited hedited, latest_fresh hfresh]
  refine ⟨hsound, ⟨hpresent, fun id hid => ⟨_, (hreads id).trans (if_pos hid)⟩, ?_⟩, ?_, ?_⟩
  · intro id
    have hgraph : (freshStart source isSource topology pacing).graph = topology.graph :=
      Network.graph_simulationWith _ pacing source _ hbuilt
    have hsources : (freshStart source isSource topology pacing).sources source =
        sourcesOf isSource topology := by
      ext other
      change (freshStart source isSource topology pacing).reads other source = some (.bool true) ↔ _
      rw [hreads]
      by_cases hother : other ∈ topology.devices <;> simp [sourcesOf, hother]
    rw [Network.distance, hgraph, hsources]
  · intro id neighbor _
    rw [hnone, hedited.received, hfresh.received]
  · intro id _
    rw [hnone]
    exact .none

/-- From a fresh start, every value is at least the hop distance at any time, it is the hop
distance `d` once all devices have stepped `2 * d + 1` times, and a device that no source can
reach yields infinity. -/
theorem converges_from_start (hbuilt : topology.Built) (source : String)
    (isSource : DeviceId → Bool) (pacing : Pacing) :
    let start := freshStart source isSource topology pacing
    let far := hopsTo topology.graph (sourcesOf isSource topology)
    (∀ schedule id, id ∈ topology.devices →
      (id ∈ schedule → ((start.stepEach schedule).1.recorder.value? id).isSome) ∧
      ∀ v, (start.stepEach schedule).1.recorder.value? id = some v →
        ∃ hops, v = .number (.ofHops hops) ∧ far id ≤ hops) ∧
    (∀ (before after : List DeviceId) (segments : List (List DeviceId)) (id : DeviceId) (d : ℕ),
      (∀ segment ∈ segments, ∀ id ∈ topology.devices, id ∈ segment) →
        id ∈ topology.devices → far id = d → d ≤ 2 ^ 53 → 2 * d + 1 ≤ segments.length →
          (start.stepEach (before ++ segments.flatten ++ after)).1.recorder.value? id =
            some (.number (.ofNat d))) ∧
    (∀ schedule id, id ∈ topology.devices → id ∈ schedule → far id = ⊤ →
      (start.stepEach schedule).1.recorder.value? id = some (.number .infinity)) := by
  intro start far
  have hstart := stage_freshStart hbuilt source isSource pacing
  refine ⟨?_, ?_, ?_⟩
  · intro schedule id hid
    constructor
    · intro hschedule
      obtain ⟨hops, hvalue, -⟩ := hstart.value_of_stepped hid hschedule
      rw [hvalue]
      rfl
    · intro v hv
      obtain ⟨hops, rfl, hnear⟩ := (hstart.run schedule).value hid hv
      exact ⟨hops, rfl, hnear.le_of_trusted⟩
  · intro before after segments id d hall hid hfar hexact hlong
    rw [Network.stepEach_append, Network.stepEach_append]
    have hstage := ((hstart.run before).segments hall).run after
    rw [Nat.zero_add] at hstage
    exact hstage.value_eq hid hfar (Or.inl trivial) hlong hexact
  · intro schedule id hid hschedule hfar
    obtain ⟨hops, hvalue, hnear⟩ := hstart.value_of_stepped hid hschedule
    have htop : hops = ⊤ := top_le_iff.mp (hfar ▸ hnear.le_of_trusted)
    rw [hvalue, htop]
    rfl

/-! ### Two devices in a line and one apart -/

/-- A line of two devices and a third that is linked to nobody. -/
def lineAndLoner : Topology := (Topology.line 2).addDevice (Topology.device 2)

/-- The device that the line begins with. -/
def isHead (id : DeviceId) : Bool := id = Topology.device 0

theorem line_converges_from_start :
    lineAndLoner.Built ∧
      ((freshStart "source" isHead lineAndLoner default).stepEach
        [.mk "d1", .mk "d2", .mk "d0", .mk "d0", .mk "d2", .mk "d1", .mk "d2", .mk "d1",
          .mk "d0"]).1.recorder.value? (.mk "d1") = some (.number (.ofNat 1)) ∧
      ((freshStart "source" isHead lineAndLoner default).stepEach
        [.mk "d2"]).1.recorder.value? (.mk "d2") = some (.number .infinity) := by
  have hbuilt : lineAndLoner.Built := (Topology.Built.line 2).addDevice _
  have hdevices : lineAndLoner.devices = [.mk "d0", .mk "d1", .mk "d2"] := by decide +kernel
  obtain ⟨-, hsettled, hunreached⟩ := converges_from_start hbuilt "source" isHead default
  refine ⟨hbuilt, ?_, ?_⟩
  · have hschedule : [DeviceId.mk "d1", .mk "d2", .mk "d0", .mk "d0", .mk "d2", .mk "d1", .mk "d2",
        .mk "d1", .mk "d0"] = [] ++ [[.mk "d1", .mk "d2", .mk "d0"], [.mk "d0", .mk "d2", .mk "d1"],
          [.mk "d2", .mk "d1", .mk "d0"]].flatten ++ [] := rfl
    rw [hschedule]
    refine hsettled [] [] _ (.mk "d1") 1 ?_ ?_ ?_ ?_ ?_
    · rw [hdevices]
      decide
    · rw [hdevices]
      decide
    · apply hopsTo_of_adj_source (y := .mk "d0")
      · rw [Topology.adj_iff hbuilt]
        decide +kernel
      · exact ⟨by rw [hdevices]; decide, by decide⟩
      · rintro ⟨-, hhead⟩
        revert hhead
        decide
    · omega
    · decide
  · apply hunreached
    · rw [hdevices]
      decide
    · decide
    · apply hopsTo_of_lonely
      · intro y hadj
        have hneighbors : lineAndLoner.neighbors (.mk "d2") = .empty := by decide +kernel
        rw [Topology.adj_iff hbuilt, Topology.Linked, hneighbors] at hadj
        cases hadj
      · rintro ⟨-, hhead⟩
        revert hhead
        decide

/-! ## Any state -/

theorem sound_after (hbuilt : topology.Built) (source : String) (pacing : Pacing)
    (events : List Network.Event) :
    Sound source pacing
      ((Network.simulation (Library.hopGradient source) topology pacing).after events) := by
  refine Network.after_invariant _ ?_ (sound_simulation hbuilt source pacing) events
  intro net event h
  exact h.react event

theorem present_after (hbuilt : topology.Built) (source : String) (pacing : Pacing)
    (events : List Network.Event) (id : DeviceId) :
    ((((Network.simulation (Library.hopGradient source) topology pacing).after
      events).nodes.find? id).isSome) ↔ id ∈ topology.devices := by
  have hbegin := sound_simulation hbuilt source pacing
  have hreact : ∀ net event, Sound source pacing net ∧
      ((net.nodes.find? id).isSome ↔ id ∈ topology.devices) →
        Sound source pacing (net.react event) ∧
          (((net.react event).nodes.find? id).isSome ↔ id ∈ topology.devices) := by
    rintro net event ⟨h, hpresent⟩
    refine ⟨h.react event, ?_⟩
    rw [h.wired.isSome_react event id]
    exact hpresent
  exact (Network.after_invariant _ hreact ⟨hbegin, Network.isSome_simulation _ _ _ id⟩ events).2

/-- Whatever steps, changes of sensors and edits of links came before: once the sensors read
truth values, no device is further than `diameter` from the nearest source and all devices have
stepped often enough, every value is the hop distance and stays so. -/
theorem stabilizes (hbuilt : topology.Built) (source : String) (pacing : Pacing)
    (events : List Network.Event) :
    let net := (Network.simulation (Library.hopGradient source) topology pacing).after events
    ∀ (diameter : ℕ) (segments : List (List DeviceId)) (later : List DeviceId),
      (∀ id ∈ topology.devices, ∃ isSource, net.reads id source = some (.bool isSource)) →
      (∀ id ∈ topology.devices, net.distance source id ≤ diameter) → diameter ≤ 2 ^ 53 →
      (∀ segment ∈ segments, ∀ id ∈ topology.devices, id ∈ segment) →
      pacing.period + 2 * diameter + 2 ≤ segments.length →
      ∀ id ∈ topology.devices, ∃ d : ℕ, net.distance source id = d ∧
        (net.stepEach (segments.flatten ++ later)).1.recorder.value? id =
          some (.number (.ofNat d)) := by
  intro net diameter segments later hreads hfar hexact hall hlong id hid
  have hsteady : Steady source topology.devices (net.distance source) net :=
    ⟨present_after hbuilt source pacing events, hreads, fun _ => rfl⟩
  have hbegin : Quieting source pacing topology.devices (net.distance source) 0 net :=
    ⟨sound_after hbuilt source pacing events, hsteady, fun _ _ => Or.inr (Nat.zero_le _)⟩
  -- after a period of segments, everyone has been heard
  have hfirst : ∀ segment ∈ segments.take pacing.period, ∀ id ∈ topology.devices, id ∈ segment :=
    fun segment h => hall segment (List.mem_of_mem_take h)
  have hquieted := hbegin.segments hfirst
  rw [List.length_take, Nat.zero_add, min_eq_left (by omega)] at hquieted
  have hheard : Stage source pacing topology.devices (net.distance source) False 0
      (net.stepEach (segments.take pacing.period).flatten).1 :=
    ⟨hquieted.sound, hquieted.steady, hquieted.heard_all le_rfl,
      fun id _ => .any (hquieted.sound.sent id)⟩
  -- the values are settled in the segments that remain
  have hrest : ∀ segment ∈ segments.drop pacing.period, ∀ id ∈ topology.devices, id ∈ segment :=
    fun segment h => hall segment (List.mem_of_mem_drop h)
  have hsettled := (hheard.segments hrest).run later
  rw [List.length_drop, ← Network.stepEach_append, ← Network.stepEach_append, ← List.append_assoc,
    ← List.flatten_append, List.take_append_drop] at hsettled
  obtain ⟨d, hd, hle⟩ := ENat.le_natCast_iff.mp (hfar id hid)
  refine ⟨d, hd, hsettled.value_eq hid hd ?_ ?_ (hle.trans hexact)⟩
  · right
    omega
  · omega

/-- Steps while the source is at one end of a line, and after the link is cut. -/
def stepsApart : List Network.Event :=
  placeSources "source" isHead [.mk "d0", .mk "d1"] ++
    [.step (.mk "d0"), .step (.mk "d1"), .unlink (.mk "d0") (.mk "d1"), .step (.mk "d1")]

/-- The network with the source at the other end and the link there again. -/
def turnedAround (before : Network) : Network :=
  (before.after (placeSources "source" (fun id => !isHead id) [.mk "d0", .mk "d1"])).link
    (.mk "d0") (.mk "d1")

/-- The events that lead there. -/
def turnAround : List Network.Event :=
  stepsApart ++ placeSources "source" (fun id => !isHead id) [.mk "d0", .mk "d1"] ++
    [.link (.mk "d0") (.mk "d1")]

theorem after_turnAround (net : Network) :
    net.after turnAround = turnedAround (net.after stepsApart) := by
  rw [turnAround, Network.after_append, Network.after_append]
  rfl

section TurnedAround

variable {before : Network}

theorem reads_turnedAround (h : before.Wired)
    (hpresent : ∀ id, (before.nodes.find? id).isSome ↔ id ∈ [DeviceId.mk "d0", .mk "d1"])
    (id : DeviceId) (hid : id ∈ [DeviceId.mk "d0", .mk "d1"]) :
    (turnedAround before).reads id "source" = some (.bool (!isHead id)) := by
  rw [turnedAround, Network.reads_link, reads_placeSources h, if_pos ⟨hid, (hpresent id).mpr hid⟩]

theorem distance_turnedAround (h : before.Wired) (hbuilt : before.topology.Built)
    (hpresent : ∀ id, (before.nodes.find? id).isSome ↔ id ∈ [DeviceId.mk "d0", .mk "d1"]) :
    (turnedAround before).distance "source" (.mk "d0") = (1 : ℕ) ∧
      (turnedAround before).distance "source" (.mk "d1") = 0 := by
  have hreads := reads_turnedAround h hpresent
  have hedited : before.Edited (before.after
      (placeSources "source" (fun id => !isHead id) [.mk "d0", .mk "d1"])) :=
    edited_placeSources h _
  have hsource : DeviceId.mk "d1" ∈ (turnedAround before).sources "source" :=
    hreads (.mk "d1") (by decide)
  have hother : DeviceId.mk "d0" ∉ (turnedAround before).sources "source" := by
    intro hmem
    have hboth : some (Value.bool (!isHead (.mk "d0"))) = some (.bool true) :=
      (hreads (.mk "d0") (by decide)).symm.trans hmem
    have hhead : (!isHead (.mk "d0")) = true := by simpa using hboth
    exact absurd hhead (by decide)
  have hadj : (turnedAround before).graph.Adj (.mk "d0") (.mk "d1") := by
    have hlinks : (turnedAround before).topology.Built :=
      (hedited.built hbuilt).link (.mk "d0") (.mk "d1")
    rw [Network.adj_iff hlinks]
    refine ⟨?_, ?_, Topology.linked_link.mpr (Or.inr ⟨by decide, Or.inl ⟨rfl, rfl⟩⟩)⟩
    · change ((before.after _).nodes.find? _).isSome
      rw [hedited.isSome, hpresent]
      decide
    · change ((before.after _).nodes.find? _).isSome
      rw [hedited.isSome, hpresent]
      decide
  exact ⟨hopsTo_of_adj_source hadj hsource hother, hopsTo_of_mem hsource⟩

end TurnedAround

theorem line_stabilizes :
    (((Network.simulation (Library.hopGradient "source") (Topology.line 2) default).after
      turnAround).stepEach (List.replicate 9 [.mk "d0", .mk "d1"]).flatten).1.recorder.value?
        (.mk "d0") = some (.number (.ofNat 1)) := by
  have hbuilt := Topology.Built.line 2
  have hdevices : (Topology.line 2).devices = [.mk "d0", .mk "d1"] := by decide +kernel
  have hsound := sound_after hbuilt "source" default stepsApart
  have hpresent := present_after hbuilt "source" default stepsApart
  have hstable := stabilizes hbuilt "source" default turnAround 1
    (List.replicate 9 [.mk "d0", .mk "d1"]) []
  rw [hdevices] at hpresent hstable
  rw [after_turnAround] at hstable ⊢
  have hreads := reads_turnedAround hsound.wired hpresent
  obtain ⟨hone, hzero⟩ := distance_turnedAround hsound.wired hsound.built hpresent
  have hnear : ∀ id ∈ [DeviceId.mk "d0", .mk "d1"],
      (turnedAround ((Network.simulation (Library.hopGradient "source") (Topology.line 2)
        default).after stepsApart)).distance "source" id ≤ (1 : ℕ) := by
    intro id hid
    rcases List.mem_cons.mp hid with rfl | hid
    · exact hone.le
    · rw [List.mem_singleton.mp hid, hzero]
      exact bot_le
  obtain ⟨d, hd, hvalue⟩ := hstable (fun id hid => ⟨_, hreads id hid⟩) hnear (by omega) (by decide)
    (by decide) (.mk "d0") (by decide)
  rw [hone, Nat.cast_inj] at hd
  rw [List.append_nil, ← hd] at hvalue
  exact hvalue

end FieldCalculus.HopGradient
