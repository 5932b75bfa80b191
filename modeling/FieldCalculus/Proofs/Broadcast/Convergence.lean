import FieldCalculus.Proofs.Broadcast.Round
import FieldCalculus.Proofs.HopGradient.Convergence
import FieldCalculus.Proofs.Stages

/-!
The broadcast brings every device the payload of a nearest source. A pair always says how far
its own source is at most, so a payload cannot come apart from its distance; and pairs travel one
hop in two stages, as a device takes one over in one round and tells it in the next.
-/

namespace FieldCalculus.Broadcast

open HopGradient (valuePath foldPath toldPath hopValue_eq_of_equals sourcesOf)

variable {start : Network} {source : String} {stage earlier later : ℕ} {id : DeviceId}
  {here : Relay}

/-! ## What a device has by a stage -/

/-- A pair that leads to a source, no further away than it says. The sources that are near enough
to have been heard of by the stage are not nearer. -/
structure Near (start : Network) (source : String) (stage : ℕ) (id : DeviceId) (r : Relay) :
    Prop where
  leads : r = .unreached ∨ ∃ origin ∈ start.sources source, ∃ n : ℕ,
    start.graph.edist id origin ≤ n ∧ r = ⟨n, some origin⟩
  arrived : ∀ origin ∈ start.sources source, ∀ d : ℕ, start.graph.edist id origin ≤ d →
    d < 2 ^ 53 → 2 * d + 2 ≤ stage → r.hops ≤ d

theorem Near.mono (h : Near start source stage id here) (hle : earlier ≤ stage) :
    Near start source earlier id here :=
  ⟨h.leads, fun origin horigin d hd hexact hstage =>
    h.arrived origin horigin d hd hexact (hstage.trans hle)⟩

/-- Before the second stage nobody needs to know of a source. -/
theorem near_unreached (hearly : stage ≤ 1) : Near start source stage id .unreached := by
  refine ⟨Or.inl rfl, ?_⟩
  intro origin _ d _ _ hstage
  omega

/-- Once a nearest source has been heard of, its distance is that of the device's pair. -/
theorem Near.nearest (h : Near start source stage id here) {d : ℕ}
    (hd : hopsTo start.graph (start.sources source) id = d) (hexact : d < 2 ^ 53)
    (hstage : 2 * d + 2 ≤ stage) :
    ∃ origin ∈ start.sources source, start.graph.edist id origin = d ∧
      here.payload = .text origin.name := by
  obtain ⟨nearest, hnearest, hfar⟩ := exists_source_of_hopsTo hd
  have hhops := h.arrived nearest hnearest d hfar.le hexact hstage
  rcases h.leads with rfl | ⟨origin, horigin, n, hn, rfl⟩
  · exact absurd (top_le_iff.mp hhops) (ENat.natCast_ne_top d)
  · refine ⟨origin, horigin, le_antisymm (hn.trans hhops) ?_, rfl⟩
    rw [← hd]
    exact iInf_le (fun s : start.sources source => start.graph.edist id s) ⟨origin, horigin⟩

/-- What a device yields is nothing or the id of a source that it can reach. -/
theorem Near.payload (h : Near start source stage id here) :
    here.payload = .unit ∨ ∃ origin ∈ start.sources source, start.graph.Reachable id origin ∧
      here.payload = .text origin.name := by
  rcases h.leads with rfl | ⟨origin, horigin, n, hn, rfl⟩
  · exact Or.inl rfl
  · refine Or.inr ⟨origin, horigin, ?_, rfl⟩
    rw [← SimpleGraph.edist_ne_top_iff_reachable]
    exact (hn.trans_lt (ENat.natCast_lt_top n)).ne

/-- What a device has sent last by a stage. From the second stage on it tells what it had a
stage ago. -/
inductive Sent (start : Network) (source : String) (stage : ℕ) (id : DeviceId) : Export → Prop where
  | first (early : stage ≤ 1) : Sent start source stage id firstExport
  | later {here heard told : Relay} (near : Near start source stage id here)
      (nearTold : Near start source (stage - 1) id told) :
      Sent start source stage id (laterExport here heard told)

namespace Sent

variable {e other : Export}

theorem mono (h : Sent start source stage id e) (hle : earlier ≤ stage) :
    Sent start source earlier id e := by
  cases h with
  | first early => exact .first (hle.trans early)
  | later near nearTold => exact .later (near.mono hle) (nearTold.mono (Nat.sub_le_sub_right hle 1))

theorem value (h : Sent start source stage id e) :
    ∃ here, e.get? valuePath = some (Relay.value here) ∧ e.root? = some here.payload ∧
      Near start source stage id here := by
  cases h with
  | first early => exact ⟨.unreached, rfl, rfl, near_unreached early⟩
  | later near _ => exact ⟨_, rfl, rfl, near⟩

/-- A device that takes part tells the same pair of the stage before at both slots. -/
theorem told (h : Sent start source stage id e) (htakes : e.contains foldPath) :
    ∃ told, (e.get? toldPath = some (Relay.value told) ∧ e.get? toldAgainPath = some told.value) ∧
      Near start source (stage - 1) id told := by
  cases h with
  | first _ => cases htakes
  | later _ nearTold => exact ⟨_, ⟨rfl, rfl⟩, nearTold⟩

theorem takesPart (h : Sent start source stage id e) (hstage : 2 ≤ stage) :
    e.contains foldPath := by
  cases h with
  | first early => omega
  | later _ _ => rfl

theorem pair (h : Sent start source stage id e) {entry : Path × Value} (hentry : entry ∈ e.toList) :
    ∃ r : Relay, entry.2 = r.value ∨ entry.2 = r.payload := by
  cases h with
  | first _ =>
      rcases Export.mem_toList_ofPuts hentry with hroot | hput
      · exact ⟨.unreached, Or.inr hroot⟩
      · exact ⟨.unreached, Or.inl (congrArg Prod.snd (List.mem_singleton.mp hput))⟩
  | @later here heard told _ _ =>
      rcases Export.mem_toList_ofPuts hentry with hroot | hput
      · exact ⟨here, Or.inr hroot⟩
      · simp only [List.mem_cons, List.not_mem_nil, or_false] at hput
        rcases hput with rfl | rfl | rfl | rfl
        · exact ⟨told, Or.inl rfl⟩
        · exact ⟨told, Or.inl rfl⟩
        · exact ⟨heard, Or.inl rfl⟩
        · exact ⟨here, Or.inl rfl⟩

end Sent

theorem Relay.payload_eq_of_equals {a b : Relay} (h : a.payload.equals b.payload) :
    a.payload = b.payload := by
  unfold payload at h ⊢
  cases ha : a.origin <;> cases hb : b.origin <;> simp_all [Value.equals]

theorem Relay.value_eq_of_equals {a b : Relay} (h : a.value.equals b.value) :
    a.value = b.value := by
  simp only [value, Value.equals, Value.equalsAll, Bool.and_eq_true, and_true] at h
  rw [value, value, hopValue_eq_of_equals h.1, payload_eq_of_equals h.2]

/-- No pair passes for a payload. -/
theorem Relay.value_not_equals_payload (a b : Relay) :
    a.value.equals b.payload = false ∧ b.payload.equals a.value = false := by
  unfold value payload
  cases b.origin <;> simp [Value.equals]

/-- Exports that programs take for equal are the same. -/
theorem Sent.eq_of_equals {e other : Export} (h : Sent start source stage id e)
    (hother : Sent start source later id other) (heq : e.equals other) : e = other := by
  refine Export.eq_of_equals ?_ heq
  intro x hx y hy hequal
  obtain ⟨a, hfirst⟩ := h.pair hx
  obtain ⟨b, hsecond⟩ := hother.pair hy
  rcases hfirst with hfirst | hfirst <;> rcases hsecond with hsecond | hsecond <;>
    rw [hfirst, hsecond] at hequal ⊢
  · exact Relay.value_eq_of_equals hequal
  · rw [(a.value_not_equals_payload b).1] at hequal
    cases hequal
  · rw [(b.value_not_equals_payload a).2] at hequal
    cases hequal
  · exact Relay.payload_eq_of_equals hequal

structure Reached (start : Network) (source : String) (stage : ℕ) (id : DeviceId)
    (taken : Option Export) : Prop where
  started : 1 ≤ stage → taken.isSome
  sent : ∀ e, taken = some e → Sent start source stage id e

/-- The broadcast of the ids of sources. -/
def protocol (start : Network) (source : String) : Protocol where
  program := Library.broadcast source .selfId
  slot := valuePath
  allowed := Reached start source

/-! ## From stage to stage -/

section Advance

variable {inputs : RoundInputs} {taken : DeviceId → Option Export} {isSource : Bool}
  {told : List Relay}

/-- What a device comes to that heard each neighbor tell what it had a stage ago. -/
theorem near_settle (hreads : start.reads id source = some (.bool isSource))
    (hfrom : ∀ r ∈ told, ∃ y, start.graph.Adj id y ∧ Near start source (stage - 1) y r)
    (hall : ∀ y, start.graph.Adj id y → 2 ≤ stage →
      ∃ r ∈ told, Near start source (stage - 1) y r) :
    Near start source (stage + 1) id (settle isSource id (Relay.nearest told)) := by
  cases isSource with
  | true =>
      constructor
      case leads =>
        refine Or.inr ⟨id, hreads, 0, ?_, rfl⟩
        rw [SimpleGraph.edist_self]
        exact bot_le
      case arrived => exact fun _ _ _ _ _ _ => bot_le
  | false =>
      have hother : id ∉ start.sources source := by
        intro hsource
        have hboth : some (Value.bool false) = some (.bool true) := hreads.symm.trans hsource
        cases hboth
      constructor
      case leads =>
        rcases Relay.nearest_eq told with heq | ⟨r, hr, heq⟩
        · exact Or.inl heq
        · obtain ⟨y, hadj, hnear⟩ := hfrom r hr
          rcases hnear.leads with rfl | ⟨origin, horigin, n, hn, rfl⟩
          · exact Or.inl heq
          · refine Or.inr ⟨origin, horigin, n + 1, ?_, heq⟩
            calc start.graph.edist id origin
                ≤ start.graph.edist id y + start.graph.edist y origin := SimpleGraph.edist_triangle
              _ ≤ 1 + n := add_le_add (SimpleGraph.edist_eq_one_iff_adj.mpr hadj).le hn
              _ = ((n + 1 : ℕ) : ℕ∞) := by rw [add_comm, Nat.cast_add, Nat.cast_one]
      case arrived =>
        intro origin horigin d hd hexact hstage
        have hne : id ≠ origin := fun hsame => hother (hsame ▸ horigin)
        cases d with
        | zero => exact absurd (SimpleGraph.edist_eq_zero_iff.mp (le_antisymm hd bot_le)) hne
        | succ d =>
            -- a neighbor on the way had heard of the source two stages ago and told it since
            obtain ⟨y, hadj, hy⟩ := exists_adj_of_edist_le hd hne
            obtain ⟨r, hr, hnear⟩ := hall y hadj (by omega)
            have hhops := hnear.arrived origin horigin d hy (by omega) (by omega)
            refine Relay.nearest_hops_le hexact hr ?_
            rw [Nat.cast_add, Nat.cast_one]
            exact add_le_add_left hhops 1

theorem first_round (hfresh : inputs.state.get? valuePath = none) :
    ∃ result, evaluate (Library.broadcast source .selfId) inputs = .ok result ∧
      (result.exported.get? valuePath).isSome ∧
      Reached start source 1 inputs.device (some result.exported) := by
  refine ⟨_, evaluate_first hfresh, rfl, fun _ => rfl, ?_⟩
  rintro _ ⟨⟩
  exact .first le_rfl

/-- A device that goes on from what it and its neighbors have sent by one stage sends what the
next stage asks for. -/
theorem later_round {last : Relay} (hreading : inputs.sensors.sense source = some (.bool isSource))
    (hreads : start.reads inputs.device source = some (.bool isSource))
    (hremembered : inputs.state.get? valuePath = some last.value)
    (hlast : Near start source stage inputs.device last)
    (hneighbors : ∀ y e, inputs.neighbors.find? y = some e ↔
      start.graph.Adj inputs.device y ∧ taken y = some e)
    (hreached : ∀ y, start.graph.Adj inputs.device y → Reached start source stage y (taken y)) :
    ∃ result, evaluate (Library.broadcast source .selfId) inputs = .ok result ∧
      (result.exported.get? valuePath).isSome ∧
      Reached start source (stage + 1) inputs.device (some result.exported) := by
  have htells : ∀ y e, inputs.neighbors.find? y = some e → e.contains foldPath → ∃ r : Relay,
      (e.get? toldPath = some r.value ∧ e.get? toldAgainPath = some r.value) ∧
        Near start source (stage - 1) y r := by
    intro y e hfound htakes
    obtain ⟨hadj, he⟩ := (hneighbors y e).mp hfound
    exact ((hreached y hadj).sent e he).told htakes
  have hinhabited : Nonempty Relay := ⟨.unreached⟩
  obtain ⟨told, htold, hfrom, hall⟩ := RoundInputs.exists_told htells
  refine ⟨_, evaluate_later hreading hremembered (htold.imp fun _ _ h => h.1), rfl,
    fun _ => rfl, ?_⟩
  rintro _ ⟨⟩
  refine .later (near_settle hreads ?_ ?_) hlast
  · intro r hr
    obtain ⟨y, e, hfound, -, hnear⟩ := hfrom r hr
    exact ⟨y, ((hneighbors y e).mp hfound).1, hnear⟩
  · intro y hadj hstage
    obtain ⟨e, he⟩ := Option.isSome_iff_exists.mp ((hreached y hadj).started (by omega))
    obtain ⟨r, hr, -, hnear⟩ := hall y e ((hneighbors y e).mpr ⟨hadj, he⟩) hadj.ne'
      (((hreached y hadj).sent e he).takesPart hstage)
    exact ⟨r, hr, hnear⟩

end Advance

/-- The broadcast gets on by stages, wherever the sources are. -/
theorem advances (hbuilt : start.topology.Built)
    (hreads : ∀ id, (start.nodes.find? id).isSome →
      ∃ isSource, start.reads id source = some (.bool isSource)) :
    (protocol start source).Advances start := by
  constructor
  case state => rfl
  case begins =>
    intro id
    constructor
    case started =>
      intro hstage
      omega
    case sent => rintro _ ⟨⟩
  case keeps =>
    intro stage id taken h
    constructor
    case started => exact fun hstage => h.started (by omega)
    case sent => exact fun e he => (h.sent e he).mono (Nat.le_succ _)
  case rigid =>
    intro stage later id e e' h h' hequal
    exact (h.sent e rfl).eq_of_equals (h'.sent e' rfl) hequal
  case round =>
    intro stage inputs taken hpresent hsense hstate hneighbors hreached
    obtain ⟨isSource, hown⟩ := hreads inputs.device hpresent
    have hreading : inputs.sensors.sense source = some (.bool isSource) :=
      (hsense source).trans hown
    have hself : Reached start source stage inputs.device (taken inputs.device) :=
      hreached inputs.device hpresent
    cases htaken : taken inputs.device with
    | none =>
        rw [htaken] at hstate hself
        have hstage : stage = 0 := by
          by_contra hne
          cases hself.started (by omega)
        rw [hstage]
        exact first_round hstate
    | some e =>
        rw [htaken] at hstate hself
        obtain ⟨last, hvalue, -, hlast⟩ := (hself.sent e rfl).value
        refine later_round hreading hown (hstate.trans hvalue) hlast hneighbors ?_
        intro y hadj
        exact hreached y ((Network.adj_iff hbuilt).mp hadj).2.1

/-- The next step of a device yields the payload of a pair that the next stage allows. -/
theorem payload_of_stage (hadvances : (protocol start source).Advances start) {net : Network}
    (h : Stage (protocol start source) start stage net) (hid : (start.nodes.find? id).isSome) :
    ∃ report here, (net.step id).2 = some (.ok report) ∧ report.value = Relay.payload here ∧
      Near start source (stage + 1) id here := by
  obtain ⟨report, hstep, hroot, hreached⟩ := h.outcome hadvances hid
  have hsent : Sent start source (stage + 1) id report.exported := hreached.sent _ rfl
  obtain ⟨here, -, hpayload, hnear⟩ := hsent.value
  rw [hroot, Option.some.injEq] at hpayload
  exact ⟨report, here, hstep, hpayload, hnear⟩

/-! ## The nearest source -/

section Start

/-- The broadcast in a network where some devices of a topology are sources and no device has
stepped. -/
def freshStart (source : String) (isSource : DeviceId → Bool) (topology : Topology)
    (pacing : Pacing) : Network :=
  Network.simulationWith (Library.broadcast source .selfId) topology pacing source fun id =>
    .bool (isSource id)

variable {topology : Topology} {isSource : DeviceId → Bool} {pacing : Pacing}

theorem reads_freshStart (id : DeviceId) :
    (freshStart source isSource topology pacing).reads id source =
      if id ∈ topology.devices then some (.bool (isSource id)) else none :=
  Network.reads_simulationWith _ pacing source _ id

theorem sources_freshStart :
    (freshStart source isSource topology pacing).sources source = sourcesOf isSource topology := by
  ext id
  change (freshStart source isSource topology pacing).reads id source = some (.bool true) ↔ _
  rw [reads_freshStart]
  by_cases hid : id ∈ topology.devices <;> simp [sourcesOf, hid]

theorem advances_freshStart (hbuilt : topology.Built) :
    (protocol (freshStart source isSource topology pacing) source).Advances
      (freshStart source isSource topology pacing) := by
  apply advances
  · rw [freshStart, Network.topology_simulationWith]
    exact hbuilt
  · intro id hid
    rw [freshStart, Network.isSome_simulationWith] at hid
    exact ⟨_, (reads_freshStart id).trans (if_pos hid)⟩

theorem stage_freshStart (hbuilt : topology.Built) :
    Stage (protocol (freshStart source isSource topology pacing) source)
      (freshStart source isSource topology pacing) 0
      (freshStart source isSource topology pacing) :=
  .begin hbuilt (advances_freshStart hbuilt) (Network.edited_simulationWith _ pacing source _)

/-- Each step of each device succeeds and yields unit or the id of a source that the device can
reach. Once all devices have stepped `2 * d + 2` times, a device whose nearest source is `d` hops
away yields the id of a source at that distance in all its later steps. A device that can reach
no source always yields unit. -/
theorem delivers_nearest_source (hbuilt : topology.Built) (source : String)
    (isSource : DeviceId → Bool) (pacing : Pacing) :
    let start := freshStart source isSource topology pacing
    let sources := sourcesOf isSource topology
    (∀ schedule id, id ∈ topology.devices →
      ∃ report, ((start.stepEach schedule).1.step id).2 = some (.ok report) ∧
        (report.value = .unit ∨ ∃ origin ∈ sources, topology.graph.Reachable id origin ∧
          report.value = .text origin.name)) ∧
    (∀ (before after : List DeviceId) (segments : List (List DeviceId)) (id : DeviceId) (d : ℕ),
      (∀ segment ∈ segments, ∀ id ∈ topology.devices, id ∈ segment) →
        id ∈ topology.devices → hopsTo topology.graph sources id = d → d < 2 ^ 53 →
        2 * d + 2 ≤ segments.length →
          ∃ report, ((start.stepEach (before ++ segments.flatten ++ after)).1.step id).2 =
              some (.ok report) ∧
            ∃ origin ∈ sources, topology.graph.edist id origin = d ∧
              report.value = .text origin.name) ∧
    (∀ schedule id, id ∈ topology.devices →
      (∀ origin ∈ sources, ¬topology.graph.Reachable id origin) →
        ∃ report, ((start.stepEach schedule).1.step id).2 = some (.ok report) ∧
          report.value = .unit) := by
  intro start sources
  have hgraph : start.graph = topology.graph :=
    Network.graph_simulationWith _ pacing source _ hbuilt
  have hsources : start.sources source = sources := sources_freshStart
  have hpresent : ∀ id, (start.nodes.find? id).isSome ↔ id ∈ topology.devices :=
    Network.isSome_simulationWith _ pacing source _
  have hadvances : (protocol start source).Advances start := advances_freshStart hbuilt
  have hbegin : Stage (protocol start source) start 0 start := stage_freshStart hbuilt
  have hsound : ∀ schedule id, id ∈ topology.devices →
      ∃ report, ((start.stepEach schedule).1.step id).2 = some (.ok report) ∧
        (report.value = .unit ∨ ∃ origin ∈ sources, topology.graph.Reachable id origin ∧
          report.value = .text origin.name) := by
    intro schedule id hid
    obtain ⟨report, here, hstep, hvalue, hnear⟩ :=
      payload_of_stage hadvances (hbegin.run hadvances schedule) ((hpresent id).mpr hid)
    have hpayload := hnear.payload
    rw [hsources, hgraph, ← hvalue] at hpayload
    exact ⟨report, hstep, hpayload⟩
  refine ⟨hsound, ?_, ?_⟩
  · intro before after segments id d hall hid hd hexact hlong
    have hstage := hbegin.segments hadvances before after fun segment hsegment id h =>
      hall segment hsegment id ((hpresent id).mp h)
    obtain ⟨report, here, hstep, hvalue, hnear⟩ :=
      payload_of_stage hadvances hstage ((hpresent id).mpr hid)
    rw [← hgraph, ← hsources] at hd
    have hnearest := hnear.nearest hd hexact (by omega)
    rw [hsources, hgraph, ← hvalue] at hnearest
    exact ⟨report, hstep, hnearest⟩
  · intro schedule id hid hapart
    obtain ⟨report, hstep, hunit | ⟨origin, horigin, hreachable, -⟩⟩ := hsound schedule id hid
    · exact ⟨report, hstep, hunit⟩
    · exact absurd hreachable (hapart origin horigin)

end Start

/-- The head of a line broadcasts to the other device of the line, and not to one apart. -/
theorem line_delivers_nearest_source :
    (∃ report, (((freshStart "source" HopGradient.isHead HopGradient.lineAndLoner default).stepEach
        ([.mk "d1"] ++ (List.replicate 4 [.mk "d2", .mk "d1", .mk "d0"]).flatten ++
          [.mk "d0"])).1.step (.mk "d1")).2 = some (.ok report) ∧ report.value = .text "d0") ∧
      ∃ report, (((freshStart "source" HopGradient.isHead HopGradient.lineAndLoner
        default).stepEach [.mk "d2", .mk "d0"]).1.step (.mk "d2")).2 = some (.ok report) ∧
          report.value = .unit := by
  have hbuilt : HopGradient.lineAndLoner.Built := (Topology.Built.line 2).addDevice _
  have hdevices : HopGradient.lineAndLoner.devices = [.mk "d0", .mk "d1", .mk "d2"] := by
    decide +kernel
  have hhead : ∀ origin ∈ sourcesOf HopGradient.isHead HopGradient.lineAndLoner,
      origin = .mk "d0" := fun origin horigin => of_decide_eq_true horigin.2
  have hfar : hopsTo HopGradient.lineAndLoner.graph
      (sourcesOf HopGradient.isHead HopGradient.lineAndLoner) (.mk "d1") = (1 : ℕ) := by
    apply hopsTo_of_adj_source (y := .mk "d0")
    · rw [Topology.adj_iff hbuilt]
      decide +kernel
    · exact ⟨by rw [hdevices]; decide, by decide⟩
    · intro hsource
      exact absurd (hhead _ hsource) (by decide)
  obtain ⟨-, hnearest, hunreached⟩ :=
    delivers_nearest_source hbuilt "source" HopGradient.isHead default
  constructor
  · obtain ⟨report, hstep, origin, horigin, -, hvalue⟩ := hnearest [.mk "d1"] [.mk "d0"]
      (List.replicate 4 [.mk "d2", .mk "d1", .mk "d0"]) (.mk "d1") 1 (by rw [hdevices]; decide)
      (by rw [hdevices]; decide) hfar (by decide) (by decide)
    rw [hhead origin horigin] at hvalue
    exact ⟨report, hstep, hvalue⟩
  · refine hunreached _ _ (by rw [hdevices]; decide) ?_
    rintro origin horigin ⟨walk⟩
    rw [hhead origin horigin] at walk
    have hneighbors : HopGradient.lineAndLoner.neighbors (.mk "d2") = .empty := by decide +kernel
    generalize hloner : DeviceId.mk "d2" = loner at walk
    cases walk with
    | nil => exact absurd hloner (by decide)
    | cons hadj _ =>
        rw [← hloner, Topology.adj_iff hbuilt, Topology.Linked, hneighbors] at hadj
        cases hadj

end FieldCalculus.Broadcast
