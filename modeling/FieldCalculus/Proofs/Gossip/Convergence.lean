import FieldCalculus.Proofs.Gossip.Round
import FieldCalculus.Proofs.Stages

/-!
Gossip finds the greatest reading. A reading travels one hop in two stages: a device takes it
over in one round and tells it in the next.
-/

namespace FieldCalculus.Gossip

open HopGradient (valuePath foldPath toldPath)

variable {start : Network} {sensor : String} {stage earlier later : ℕ} {id : DeviceId}
  {number : Number}

/-! ## What a device has by a stage -/

/-- A number that some device in reach reads. The readings that are near enough to have arrived
by the stage are not after it. -/
structure Near (start : Network) (sensor : String) (stage : ℕ) (id : DeviceId)
    (number : Number) : Prop where
  read : ∃ other, start.graph.Reachable id other ∧ start.reads other sensor = some (.number number)
  arrived : ∀ other reading (d : ℕ), start.graph.edist id other ≤ d → 2 * d + 1 ≤ stage →
    start.reads other sensor = some (.number reading) → reading.rank.toNat ≤ number.rank.toNat

theorem Near.mono (h : Near start sensor stage id number) (hle : earlier ≤ stage) :
    Near start sensor earlier id number :=
  ⟨h.read, fun other reading d hd hstage => h.arrived other reading d hd (hstage.trans hle)⟩

/-- Once the greatest reading in reach has arrived, a device has nothing else. -/
theorem Near.eq_of_greatest (h : Near start sensor stage id number) {top : DeviceId}
    {greatest : Number} {d : ℕ} (hd : start.graph.edist id top ≤ d) (hstage : 2 * d + 1 ≤ stage)
    (htop : start.reads top sensor = some (.number greatest))
    (hgreatest : ∀ other reading, start.graph.Reachable id other →
      start.reads other sensor = some (.number reading) →
        reading.rank.toNat ≤ greatest.rank.toNat) : number = greatest := by
  obtain ⟨other, hother, hread⟩ := h.read
  have hle := hgreatest other number hother hread
  have hge := h.arrived top greatest d hd hstage htop
  exact Number.rank_injective (UInt64.toNat_inj.mp (le_antisymm hle hge))

/-- What a device has sent last by a stage. From the second stage on it tells what it had a
stage ago. -/
inductive Sent (start : Network) (sensor : String) (stage : ℕ) (id : DeviceId) : Export → Prop where
  | first {value : Number} (near : Near start sensor stage id value) (early : stage ≤ 1) :
      Sent start sensor stage id (firstExport value)
  | later {value told : Number} (near : Near start sensor stage id value)
      (nearTold : Near start sensor (stage - 1) id told) :
      Sent start sensor stage id (laterExport value told)

namespace Sent

variable {e other : Export}

theorem mono (h : Sent start sensor stage id e) (hle : earlier ≤ stage) :
    Sent start sensor earlier id e := by
  cases h with
  | first near early => exact .first (near.mono hle) (hle.trans early)
  | later near nearTold => exact .later (near.mono hle) (nearTold.mono (Nat.sub_le_sub_right hle 1))

theorem value (h : Sent start sensor stage id e) :
    ∃ value, e.get? valuePath = some (.number value) ∧ e.root? = some (.number value) ∧
      Near start sensor stage id value := by
  cases h with
  | first near _ => exact ⟨_, rfl, rfl, near⟩
  | later near _ => exact ⟨_, rfl, rfl, near⟩

/-- A device that takes part tells a number of the stage before. -/
theorem told (h : Sent start sensor stage id e) (htakes : e.contains foldPath) :
    ∃ told, e.get? toldPath = some (.number told) ∧ Near start sensor (stage - 1) id told := by
  cases h with
  | first _ _ => cases htakes
  | later _ nearTold => exact ⟨_, rfl, nearTold⟩

theorem takesPart (h : Sent start sensor stage id e) (hstage : 2 ≤ stage) :
    e.contains foldPath := by
  cases h with
  | first _ early => omega
  | later _ _ => rfl

theorem reading (h : Sent start sensor stage id e) {entry : Path × Value}
    (hentry : entry ∈ e.toList) :
    ∃ number other, entry.2 = .number number ∧
      start.reads other sensor = some (.number number) := by
  cases h with
  | @first value near _ =>
      obtain ⟨other, -, hread⟩ := near.read
      rcases Export.mem_toList_ofPuts hentry with hroot | hput
      · exact ⟨value, other, hroot, hread⟩
      · exact ⟨value, other, congrArg Prod.snd (List.mem_singleton.mp hput), hread⟩
  | @later value told near nearTold =>
      obtain ⟨other, -, hread⟩ := near.read
      obtain ⟨teller, -, htold⟩ := nearTold.read
      rcases Export.mem_toList_ofPuts hentry with hroot | hput
      · exact ⟨value, other, hroot, hread⟩
      · simp only [List.mem_cons, List.not_mem_nil, or_false] at hput
        rcases hput with rfl | rfl | rfl
        · exact ⟨told, teller, rfl, htold⟩
        · exact ⟨value, other, rfl, hread⟩
        · exact ⟨value, other, rfl, hread⟩

/-- Exports that programs take for equal are the same, if no reading equals another. -/
theorem eq_of_equals (h : Sent start sensor stage id e) (hother : Sent start sensor later id other)
    (hplain : ∀ device number, start.reads device sensor = some (.number number) → number.Plain)
    (heq : e.equals other) : e = other := by
  refine Export.eq_of_equals ?_ heq
  intro x hx y hy hequal
  obtain ⟨a, reader, hfirst, ha⟩ := h.reading hx
  obtain ⟨b, otherReader, hsecond, hb⟩ := hother.reading hy
  rw [hfirst, hsecond] at hequal ⊢
  exact congrArg Value.number ((hplain _ _ ha).eq_of_equals (hplain _ _ hb) hequal)

end Sent

structure Reached (start : Network) (sensor : String) (stage : ℕ) (id : DeviceId)
    (taken : Option Export) : Prop where
  started : 1 ≤ stage → taken.isSome
  sent : ∀ e, taken = some e → Sent start sensor stage id e

/-- Gossip about the readings of a sensor. -/
def protocol (start : Network) (sensor : String) : Protocol where
  program := Library.gossipMax (.sense sensor)
  slot := valuePath
  allowed := Reached start sensor

/-! ## From stage to stage -/

section Advance

variable {inputs : RoundInputs} {taken : DeviceId → Option Export} {own last : Number}
  {told : List Number}

/-- The first round is worth the device's own reading. -/
theorem near_own (hown : start.reads id sensor = some (.number own)) :
    Near start sensor 1 id own := by
  constructor
  case read => exact ⟨id, .rfl, hown⟩
  case arrived =>
    intro other reading d hd hstage hread
    have hzero : d = 0 := by omega
    rw [hzero] at hd
    have hsame : id = other := SimpleGraph.edist_eq_zero_iff.mp (le_antisymm hd bot_le)
    rw [← hsame, hown, Option.some.injEq, Value.number.injEq] at hread
    rw [hread]

/-- What a device finds that heard each neighbor tell what it had a stage ago. -/
theorem near_greatest (hown : start.reads id sensor = some (.number own))
    (hlast : Near start sensor stage id last)
    (hfrom : ∀ number ∈ told, ∃ y, start.graph.Adj id y ∧ Near start sensor (stage - 1) y number)
    (hall : ∀ y, start.graph.Adj id y → 2 ≤ stage →
      ∃ number ∈ told, Near start sensor (stage - 1) y number) :
    Near start sensor (stage + 1) id (greatest own last told) := by
  constructor
  case read =>
    rcases List.mem_cons.mp (greatest_mem own last told) with heq | hmem
    · exact ⟨id, .rfl, by rw [heq, hown]⟩
    · rcases List.mem_cons.mp hmem with heq | htold
      · rw [heq]
        exact hlast.read
      · obtain ⟨y, hadj, hnear⟩ := hfrom _ htold
        obtain ⟨other, hreachable, hread⟩ := hnear.read
        exact ⟨other, hadj.reachable.trans hreachable, hread⟩
  case arrived =>
    intro other reading d hd hstage hread
    by_cases hsame : id = other
    · rw [← hsame, hown, Option.some.injEq, Value.number.injEq] at hread
      rw [← hread]
      exact rank_le_greatest List.mem_cons_self
    · cases d with
      | zero => exact absurd (SimpleGraph.edist_eq_zero_iff.mp (le_antisymm hd bot_le)) hsame
      | succ d =>
          -- a neighbor on the way had the reading two stages ago and told it in the last one
          obtain ⟨y, hadj, hy⟩ := exists_adj_of_edist_le hd hsame
          obtain ⟨number, hnumber, hnear⟩ := hall y hadj (by omega)
          calc reading.rank.toNat
              ≤ number.rank.toNat := hnear.arrived other reading d hy (by omega) hread
            _ ≤ (greatest own last told).rank.toNat :=
              rank_le_greatest (List.mem_cons_of_mem _ (List.mem_cons_of_mem _ hnumber))

theorem first_round (hreading : inputs.sensors.sense sensor = some (.number own))
    (hown : start.reads inputs.device sensor = some (.number own))
    (hfresh : inputs.state.get? valuePath = none) :
    ∃ result, evaluate (Library.gossipMax (.sense sensor)) inputs = .ok result ∧
      (result.exported.get? valuePath).isSome ∧
      Reached start sensor 1 inputs.device (some result.exported) := by
  refine ⟨_, evaluate_first hreading hfresh, rfl, fun _ => rfl, ?_⟩
  rintro _ ⟨⟩
  exact .first (near_own hown) le_rfl

/-- A device that goes on from what it and its neighbors have sent by one stage sends what the
next stage asks for. -/
theorem later_round (hreading : inputs.sensors.sense sensor = some (.number own))
    (hown : start.reads inputs.device sensor = some (.number own))
    (hremembered : inputs.state.get? valuePath = some (.number last))
    (hlast : Near start sensor stage inputs.device last)
    (hneighbors : ∀ y e, inputs.neighbors.find? y = some e ↔
      start.graph.Adj inputs.device y ∧ taken y = some e)
    (hreached : ∀ y, start.graph.Adj inputs.device y → Reached start sensor stage y (taken y)) :
    ∃ result, evaluate (Library.gossipMax (.sense sensor)) inputs = .ok result ∧
      (result.exported.get? valuePath).isSome ∧
      Reached start sensor (stage + 1) inputs.device (some result.exported) := by
  have htells : ∀ y e, inputs.neighbors.find? y = some e → e.contains foldPath →
      ∃ number, e.get? toldPath = some (.number number) ∧
        Near start sensor (stage - 1) y number := by
    intro y e hfound htakes
    obtain ⟨hadj, he⟩ := (hneighbors y e).mp hfound
    exact ((hreached y hadj).sent e he).told htakes
  obtain ⟨told, htold, hfrom, hall⟩ := RoundInputs.exists_told htells
  refine ⟨_, evaluate_later hreading hremembered (htold.imp fun _ _ h => h.1), rfl,
    fun _ => rfl, ?_⟩
  rintro _ ⟨⟩
  refine .later (near_greatest hown hlast ?_ ?_) hlast
  · intro number hnumber
    obtain ⟨y, e, hfound, -, hnear⟩ := hfrom number hnumber
    exact ⟨y, ((hneighbors y e).mp hfound).1, hnear⟩
  · intro y hadj hstage
    obtain ⟨e, he⟩ := Option.isSome_iff_exists.mp ((hreached y hadj).started (by omega))
    obtain ⟨number, hnumber, -, hnear⟩ := hall y e ((hneighbors y e).mpr ⟨hadj, he⟩) hadj.ne'
      (((hreached y hadj).sent e he).takesPart hstage)
    exact ⟨number, hnumber, hnear⟩

end Advance

/-- Gossip about plain numbers gets on by stages. -/
theorem advances (hbuilt : start.topology.Built)
    (hreads : ∀ id, (start.nodes.find? id).isSome →
      ∃ number, start.reads id sensor = some (.number number))
    (hplain : ∀ id number, start.reads id sensor = some (.number number) → number.Plain) :
    (protocol start sensor).Advances start := by
  constructor
  case state => rfl
  case begins =>
    intro id
    constructor
    case started =>
      intro hstage
      omega
    case sent => rintro _ ⟨⟩
  case keeps =>
    intro stage id taken h
    constructor
    case started => exact fun hstage => h.started (by omega)
    case sent => exact fun e he => (h.sent e he).mono (Nat.le_succ _)
  case rigid =>
    intro stage later id e e' h h' hequal
    exact (h.sent e rfl).eq_of_equals (h'.sent e' rfl) hplain hequal
  case round =>
    intro stage inputs taken hpresent hsense hstate hneighbors hreached
    obtain ⟨own, hown⟩ := hreads inputs.device hpresent
    have hreading : inputs.sensors.sense sensor = some (.number own) := (hsense sensor).trans hown
    have hself : Reached start sensor stage inputs.device (taken inputs.device) :=
      hreached inputs.device hpresent
    cases htaken : taken inputs.device with
    | none =>
        rw [htaken] at hstate hself
        have hstage : stage = 0 := by
          by_contra hne
          cases hself.started (by omega)
        rw [hstage]
        exact first_round hreading hown hstate
    | some e =>
        rw [htaken] at hstate hself
        obtain ⟨last, hvalue, -, hlast⟩ := (hself.sent e rfl).value
        refine later_round hreading hown (hstate.trans hvalue) hlast hneighbors ?_
        intro y hadj
        exact hreached y ((Network.adj_iff hbuilt).mp hadj).2.1

theorem value_of_stage {net : Network} (h : Stage (protocol start sensor) start stage net)
    (hid : (start.nodes.find? id).isSome) (hstage : 1 ≤ stage) :
    ∃ number, net.recorder.value? id = some (.number number) ∧
      Near start sensor stage id number := by
  have hreached : Reached start sensor stage id (HopGradient.latest net id) := h.reached id hid
  obtain ⟨e, he⟩ := Option.isSome_iff_exists.mp (hreached.started hstage)
  obtain ⟨number, -, hroot, hnear⟩ := (hreached.sent e he).value
  refine ⟨number, ?_, hnear⟩
  rw [h.value, he, Option.bind_some, hroot]

/-! ## The greatest reading -/

section Start

/-- Gossip about the readings that were set on the devices of a topology. -/
def freshStart (sensor : String) (readings : DeviceId → Number) (topology : Topology)
    (pacing : Pacing) : Network :=
  Network.simulationWith (Library.gossipMax (.sense sensor)) topology pacing sensor fun id =>
    .number (readings id)

variable {topology : Topology} {readings : DeviceId → Number} {pacing : Pacing}

theorem reads_freshStart (id : DeviceId) (number : Number) :
    (freshStart sensor readings topology pacing).reads id sensor = some (.number number) ↔
      id ∈ topology.devices ∧ readings id = number := by
  rw [freshStart, Network.reads_simulationWith]
  by_cases hid : id ∈ topology.devices <;> simp [hid]

theorem advances_freshStart (hbuilt : topology.Built)
    (hplain : ∀ id ∈ topology.devices, (readings id).Plain) :
    (protocol (freshStart sensor readings topology pacing) sensor).Advances
      (freshStart sensor readings topology pacing) := by
  apply advances
  · rw [freshStart, Network.topology_simulationWith]
    exact hbuilt
  · intro id hid
    rw [freshStart, Network.isSome_simulationWith] at hid
    exact ⟨_, (reads_freshStart id _).mpr ⟨hid, rfl⟩⟩
  · intro id number h
    obtain ⟨hid, rfl⟩ := (reads_freshStart id number).mp h
    exact hplain id hid

theorem mem_devices_of_reachable (hbuilt : topology.Built) {other : DeviceId}
    (hid : id ∈ topology.devices) (h : topology.graph.Reachable id other) :
    other ∈ topology.devices := by
  obtain ⟨walk⟩ := h.symm
  cases walk with
  | nil => exact hid
  | cons hadj _ => exact Topology.mem_devices ((Topology.adj_iff hbuilt).mp hadj)

/-- Once all devices have stepped `2 * d + 1` times, each that is within `d` hops of a device
with the greatest reading in reach has that reading as its value, and keeps it. -/
theorem converges_to_maximum (hbuilt : topology.Built) (sensor : String)
    (readings : DeviceId → Number) (hplain : ∀ id ∈ topology.devices, (readings id).Plain)
    (pacing : Pacing) :
    let start := freshStart sensor readings topology pacing
    ∀ (before after : List DeviceId) (segments : List (List DeviceId)) (id top : DeviceId) (d : ℕ),
      (∀ segment ∈ segments, ∀ id ∈ topology.devices, id ∈ segment) →
      id ∈ topology.devices → topology.graph.edist id top ≤ d →
      (∀ other, topology.graph.Reachable id other →
        (readings other).amount ≤ (readings top).amount) →
      2 * d + 1 ≤ segments.length →
        (start.stepEach (before ++ segments.flatten ++ after)).1.recorder.value? id =
          some (.number (readings top)) := by
  intro start before after segments id top d hall hid hd hmaximal hlong
  have hgraph : start.graph = topology.graph :=
    Network.graph_simulationWith _ pacing sensor _ hbuilt
  have hpresent : ∀ id, (start.nodes.find? id).isSome ↔ id ∈ topology.devices :=
    Network.isSome_simulationWith _ pacing sensor _
  have hadvances : (protocol start sensor).Advances start := advances_freshStart hbuilt hplain
  have hstage := (Stage.begin hbuilt hadvances (Network.edited_simulationWith _ pacing sensor _))
    |>.segments hadvances before after fun segment hsegment id h =>
      hall segment hsegment id ((hpresent id).mp h)
  obtain ⟨number, hvalue, hnear⟩ := value_of_stage hstage ((hpresent id).mpr hid) (by omega)
  have hreachable : topology.graph.Reachable id top := by
    rw [← SimpleGraph.edist_ne_top_iff_reachable]
    exact (hd.trans_lt (ENat.natCast_lt_top d)).ne
  have htop : top ∈ topology.devices := mem_devices_of_reachable hbuilt hid hreachable
  rw [hvalue, hnear.eq_of_greatest (hgraph ▸ hd) (by omega)
    ((reads_freshStart top _).mpr ⟨htop, rfl⟩)]
  intro other reading hother hread
  obtain ⟨hotherDevice, rfl⟩ := (reads_freshStart other reading).mp hread
  rw [← Number.isLE_totalOrder, (hplain other hotherDevice).isLE_totalOrder_iff (hplain top htop)]
  exact hmaximal other (hgraph ▸ hother)

end Start

/-- The greatest reading is at the head of a line. -/
def highAtHead (id : DeviceId) : Number := if id = Topology.device 0 then 5 else 3

theorem line_converges_to_maximum :
    ((freshStart "value" highAtHead (Topology.line 3) default).stepEach
        ([.mk "d2"] ++ (List.replicate 5 [.mk "d2", .mk "d0", .mk "d1"]).flatten ++
          [.mk "d0", .mk "d2"])).1.recorder.value? (.mk "d2") = some (.number 5) := by
  have hbuilt := Topology.Built.line 3
  have hdevices : (Topology.line 3).devices = [.mk "d0", .mk "d1", .mk "d2"] := by decide +kernel
  have hfirst : (Topology.line 3).graph.Adj (.mk "d2") (.mk "d1") := by
    rw [Topology.adj_iff hbuilt]
    decide +kernel
  have hsecond : (Topology.line 3).graph.Adj (.mk "d1") (.mk "d0") := by
    rw [Topology.adj_iff hbuilt]
    decide +kernel
  refine converges_to_maximum hbuilt "value" highAtHead ?_ default [.mk "d2"]
    [.mk "d0", .mk "d2"] (List.replicate 5 [.mk "d2", .mk "d0", .mk "d1"]) (.mk "d2") (.mk "d0") 2
    ?_ ?_ ?_ ?_ ?_
  · rw [hdevices]
    decide +kernel
  · rw [hdevices]
    decide
  · rw [hdevices]
    decide
  · exact SimpleGraph.edist_le (.cons hfirst (.cons hsecond .nil))
  · intro other _
    rw [highAtHead]
    split
    · decide +kernel
    · decide +kernel
  · decide

end FieldCalculus.Gossip
