import FieldCalculus.Proofs.Receipts
import FieldCalculus.Proofs.Region.Confinement

/-!
A region behaves as if the rest of the network did not exist. A network in which a branch on the
region decides what a device runs is compared with the network of the devices of the region alone.
What happens inside happens to both, what happens outside to the first only, and they go on showing
the same.
-/

namespace FieldCalculus

/-! ## The links inside a region -/

namespace Topology

variable {inside : DeviceId → Bool} {t alone : Topology} {a b : DeviceId}

/-- The devices of a region and the links between them. -/
def induced (t : Topology) (inside : DeviceId → Bool) : Topology :=
  ⟨(t.adjacency.filter fun id _ => inside id).map fun s => s.filter fun id _ => inside id⟩

/-- The second topology has the links of the first that lie inside. -/
def Induces (inside : DeviceId → Bool) (t alone : Topology) : Prop :=
  ∀ x y, alone.Linked x y ↔ inside x ∧ inside y ∧ t.Linked x y

theorem neighbors_induced (t : Topology) (inside : DeviceId → Bool) (x : DeviceId) :
    (t.induced inside).neighbors x =
      if inside x then (t.neighbors x).filter fun id _ => inside id else .empty := by
  unfold neighbors induced
  rw [Dict.find?_map, Dict.find?_filter]
  cases t.adjacency.find? x with
  | none => exact (ite_self _).symm
  | some s =>
      rw [Option.filter_some]
      split <;> rfl

theorem induces_induced (t : Topology) (inside : DeviceId → Bool) :
    t.Induces inside (t.induced inside) := by
  intro x y
  have hkept : ∀ s : DeviceSet,
      ((s.filter fun id _ => inside id).contains y = true ↔ inside y ∧ s.contains y) := by
    intro s
    unfold Dict.contains
    rw [Dict.find?_filter]
    cases s.find? y <;> cases inside y <;> simp
  unfold Linked
  rw [neighbors_induced]
  split
  · rename_i hinside
    rw [hkept]
    simp [hinside]
  · rename_i houtside
    simp [houtside, Dict.contains]

theorem mem_devices_induced {id : DeviceId} :
    id ∈ (t.induced inside).devices ↔ inside id ∧ id ∈ t.devices := by
  rw [devices, devices, Dict.mem_keys, Dict.mem_keys, induced, Dict.find?_map, Dict.find?_filter]
  cases t.adjacency.find? id <;> cases inside id <;> simp

namespace Induces

theorem link (h : t.Induces inside alone) (ha : inside a) (hb : inside b) :
    (t.link a b).Induces inside (alone.link a b) := by
  intro x y
  rw [linked_link, linked_link, h]
  constructor
  · rintro (⟨hx, hy, hlinked⟩ | ⟨hne, ⟨rfl, rfl⟩ | ⟨rfl, rfl⟩⟩)
    · exact ⟨hx, hy, Or.inl hlinked⟩
    · exact ⟨ha, hb, Or.inr ⟨hne, Or.inl ⟨rfl, rfl⟩⟩⟩
    · exact ⟨hb, ha, Or.inr ⟨hne, Or.inr ⟨rfl, rfl⟩⟩⟩
  · rintro ⟨hx, hy, hlinked | hnew⟩
    · exact Or.inl ⟨hx, hy, hlinked⟩
    · exact Or.inr hnew

theorem unlink (h : t.Induces inside alone) (a b : DeviceId) :
    (t.unlink a b).Induces inside (alone.unlink a b) := by
  intro x y
  rw [linked_unlink, linked_unlink, h, and_assoc, and_assoc]

/-- A link that does not lie inside does not matter. -/
theorem link_across (h : t.Induces inside alone) (hacross : ¬(inside a ∧ inside b)) :
    (t.link a b).Induces inside alone := by
  intro x y
  rw [linked_link, h]
  refine and_congr_right fun hx => and_congr_right fun hy => ?_
  constructor
  · exact Or.inl
  · rintro (hlinked | ⟨-, ⟨rfl, rfl⟩ | ⟨rfl, rfl⟩⟩)
    · exact hlinked
    · exact absurd ⟨hx, hy⟩ hacross
    · exact absurd ⟨hy, hx⟩ hacross

theorem unlink_across (h : t.Induces inside alone) (hacross : ¬(inside a ∧ inside b)) :
    (t.unlink a b).Induces inside alone := by
  intro x y
  rw [linked_unlink, h]
  refine and_congr_right fun hx => and_congr_right fun hy => ?_
  constructor
  · intro hlinked
    refine ⟨hlinked, ?_⟩
    rintro (⟨rfl, rfl⟩ | ⟨rfl, rfl⟩)
    · exact hacross ⟨hx, hy⟩
    · exact hacross ⟨hy, hx⟩
  · exact And.left

end Induces

end Topology

namespace Network

variable {inside : DeviceId → Bool} {region : String} {program elsewhere : Expr} {limit : Nat}
  {whole alone : Network} {id other sender : DeviceId} {node own : Node} {act : Act}

/-- What a round shows of a device: when it took place and what it came to. -/
def RoundRecord.seen (r : RoundRecord) : DeviceId × Nat × Except Fault (Value × Bool) :=
  (r.id, r.time, r.outcome.shown)

theorem find?_changeSensors (net : Network) (id : DeviceId) (change : SensorTable → SensorTable)
    (other : DeviceId) : (net.perform (.changeSensors id change)).nodes.find? other =
      if other = id then (net.nodes.find? id).map fun node =>
        { node with sensors := change node.sensors }
      else net.nodes.find? other :=
  Dict.find?_modify _ _ _ _

theorem seen_step {net : Network} (hnode : net.nodes.find? id = some node) :
    (net.roundOf? (.step id)).map RoundRecord.seen =
      some (id, net.now, (node.device.round (net.settingOf node)).2.shown) := by
  rw [roundOf?, hnode, Option.map_some, Option.map_some, outcome_stepNode]
  rfl

/-! ## Two networks side by side -/

/-- A device of the region in the whole network and in the one of the region alone. -/
structure Mirrored (program : Expr) (node own : Node) : Prop where
  device : node.device.Confined (Region.side true) own.device
  sensors : node.sensors = own.sensors
  runs : own.device.program = program

/-- A message that was received in both networks. -/
structure Received (arrival own : Arrival) : Prop where
  exported : arrival.message.exported.Confined (Region.side true) own.message.exported
  receivedAt : arrival.receivedAt = own.receivedAt

/-- The second network is the region of the first by itself. -/
structure Mirrors (inside : DeviceId → Bool) (region : String) (program elsewhere : Expr)
    (whole alone : Network) : Prop where
  live : whole.Live
  aloneLive : alone.Live
  now : whole.now = alone.now
  staleness : whole.hub.staleness = alone.hub.staleness
  links : whole.topology.Induces inside alone.topology
  branches : ∀ id node, whole.nodes.find? id = some node →
    node.device.program = .branch (.sense region) program elsewhere ∧
      node.sensors.sensors.sense region = some (.bool (inside id))
  devices : ∀ id, inside id →
    Option.Rel (Mirrored program) (whole.nodes.find? id) (alone.nodes.find? id)
  receipts : ∀ id sender, inside id → inside sender →
    Option.Rel Received (whole.receipt id sender) (alone.receipt id sender)
  foreign : ∀ id sender arrival, inside id → inside sender = false →
    whole.receipt id sender = some arrival →
    ∀ path, arrival.message.exported.get? (Region.side true ++ path) = none

namespace Mirrors

theorem isSome_find? (h : Mirrors inside region program elsewhere whole alone)
    (hinside : inside id) :
    (alone.nodes.find? id).isSome = (whole.nodes.find? id).isSome := by
  have hdevices := h.devices id hinside
  generalize whole.nodes.find? id = found at hdevices ⊢
  generalize alone.nodes.find? id = found' at hdevices ⊢
  cases hdevices <;> rfl

theorem exists_own (h : Mirrors inside region program elsewhere whole alone)
    (hinside : inside id) (hnode : whole.nodes.find? id = some node) :
    ∃ own, alone.nodes.find? id = some own ∧ Mirrored program node own := by
  have hdevices := h.devices id hinside
  rw [hnode] at hdevices
  generalize alone.nodes.find? id = found at hdevices
  cases hdevices with
  | some hmirrored => exact ⟨_, rfl, hmirrored⟩

/-- Messages from inside are stale in both networks or in none. -/
theorem received_counts (h : Mirrors inside region program elsewhere whole alone)
    {arrival arrival' : Option Arrival} (hreceived : Option.Rel Received arrival arrival') :
    Option.Rel Received (arrival.filter whole.counts) (arrival'.filter alone.counts) := by
  cases hreceived with
  | none => exact .none
  | @some arrival arrival' hboth =>
      have hcounts : whole.counts arrival = alone.counts arrival' := by
        rw [counts, counts, h.now, h.staleness, hboth.receivedAt]
      rw [Option.filter_some, Option.filter_some, hcounts]
      split
      · exact .some hboth
      · exact .none

/-- A device of the region hears below the branch what it hears in the region alone. -/
theorem exportOf_heard (h : Mirrors inside region program elsewhere whole alone)
    (hinside : inside id) (hnode : whole.nodes.find? id = some node)
    (hown : alone.nodes.find? id = some own) (other : DeviceId) (path : Path) :
    ((whole.heard node).exportOf other).get? (Region.side true ++ path) =
      ((alone.heard own).exportOf other).get? path := by
  have hlinks := h.links id other
  rw [NeighborSnapshot.exportOf, NeighborSnapshot.exportOf, h.live.find?_heard hnode,
    h.aloneLive.find?_heard hown]
  cases hother : inside other with
  | true =>
      have hlinked : alone.topology.Linked id other ↔ whole.topology.Linked id other := by
        rw [hlinks, hother]
        simp [hinside]
      have hreceived := h.received_counts (h.receipts id other hinside hother)
      simp only [hlinked]
      split
      · generalize (whole.receipt id other).filter whole.counts = arrival at hreceived ⊢
        generalize (alone.receipt id other).filter alone.counts = arrival' at hreceived ⊢
        cases hreceived with
        | none => rfl
        | some hboth => exact hboth.exported.below path
      · rfl
  | false =>
      -- A device outside is no neighbor in the region alone; in the whole network it may be one,
      -- but nothing it has sent lies below the branch.
      have hapart : ¬(alone.topology.Linked id other ∧ other ≠ id) := by
        rw [hlinks, hother]
        simp
      rw [if_neg hapart]
      change _ = none
      split
      · cases hreceived : whole.receipt id other with
        | none => rfl
        | some arrival =>
            have hforeign := h.foreign id other arrival hinside hother hreceived path
            rw [Option.filter_some]
            split
            · exact hforeign
            · rfl
      · rfl

theorem confined_setting (h : Mirrors inside region program elsewhere whole alone)
    (hinside : inside id) (hnode : whole.nodes.find? id = some node)
    (hown : alone.nodes.find? id = some own) (hsensors : node.sensors = own.sensors) :
    (whole.settingOf node).Confined (Region.side true) own.device.id (alone.settingOf own) := by
  constructor
  case sensors => exact congrArg SensorTable.sensors hsensors
  case accepts => exact (h.live.accepts hnode).trans (h.aloneLive.accepts hown).symm
  case exported =>
    intro other _ path _
    exact h.exportOf_heard hinside hnode hown other path

/-! ## Steps -/

theorem branches_step (h : Mirrors inside region program elsewhere whole alone)
    (hnode : whole.nodes.find? id = some node) {found : Node}
    (hfound : (whole.perform (.step id)).nodes.find? other = some found) :
    found.device.program = .branch (.sense region) program elsewhere ∧
      found.sensors.sensors.sense region = some (.bool (inside other)) := by
  obtain ⟨counters, hstep⟩ := perform_step hnode
  rw [hstep] at hfound
  dsimp only at hfound
  rw [Dict.find?_insert] at hfound
  split at hfound
  · rename_i heq
    cases hfound
    obtain ⟨hprogram, hreads⟩ := h.branches id node hnode
    have hsame := node.device.same_take (.round (whole.settingOf node))
    exact ⟨hsame.program.trans hprogram, heq ▸ hreads⟩
  · exact h.branches other found hfound

/-- Nothing of what a device outside sends is on the side of the region. -/
theorem foreign_step (h : Mirrors inside region program elsewhere whole alone)
    (hnode : whole.nodes.find? id = some node) {arrival : Arrival} (hother : inside other)
    (hsender : inside sender = false)
    (hreceipt : (whole.perform (.step id)).receipt other sender = some arrival) (path : Path) :
    arrival.message.exported.get? (Region.side true ++ path) = none := by
  have hbefore : ∀ arrival, whole.receipt other sender = some arrival →
      arrival.message.exported.get? (Region.side true ++ path) = none :=
    fun arrival harrival => h.foreign other sender arrival hother hsender harrival path
  rw [h.live.receipt_step hnode] at hreceipt
  split at hreceipt
  · rename_i hsent
    cases hoffered : whole.offered node with
    | none =>
        rw [hoffered, Option.map_none, Option.none_or] at hreceipt
        exact hbefore arrival hreceipt
    | some message =>
        rw [hoffered, Option.map_some, Option.some_or, Option.some.injEq] at hreceipt
        obtain ⟨hprogram, hreads⟩ := h.branches id node hnode
        obtain ⟨-, result, hresult, hexported⟩ := evaluated_of_offered hoffered
        rw [hprogram] at hresult
        rw [← hsent.1, hsender] at hreads
        rw [← hreceipt, hexported]
        exact Region.get?_outside hreads hresult path
  · split at hreceipt
    · rw [Option.filter_eq_some_iff] at hreceipt
      exact hbefore arrival hreceipt.1
    · exact hbefore arrival hreceipt

/-- What a device of the region sends is received in both networks by the devices of the region
that are linked to it. -/
theorem receipts_step (h : Mirrors inside region program elsewhere whole alone)
    (hnode : whole.nodes.find? id = some node) (hown : alone.nodes.find? id = some own)
    (hoffered : Option.Rel (fun m n => m.exported.Confined (Region.side true) n.exported)
      (whole.offered node) (alone.offered own)) (hother : inside other) (hsender : inside sender) :
    Option.Rel Received ((whole.perform (.step id)).receipt other sender)
      ((alone.perform (.step id)).receipt other sender) := by
  have hreached : (sender = id ∧ alone.topology.Linked id other ∧ other ≠ id ∧
      (alone.nodes.find? other).isSome) ↔ (sender = id ∧ whole.topology.Linked id other ∧
        other ≠ id ∧ (whole.nodes.find? other).isSome) := by
    rw [h.isSome_find? hother]
    refine and_congr_right fun hid => and_congr_left fun _ => ?_
    rw [h.links, ← hid]
    simp [hsender, hother]
  have hreceipts := h.receipts other sender hother hsender
  rw [h.live.receipt_step hnode, h.aloneLive.receipt_step hown]
  simp only [hreached]
  split
  · generalize whole.offered node = message at hoffered ⊢
    generalize alone.offered own = message' at hoffered ⊢
    cases hoffered with
    | none => exact hreceipts
    | some hexported => exact .some ⟨hexported, h.now⟩
  · split
    · exact h.received_counts hreceipts
    · exact hreceipts

/-- A step of a device of the region happens in both networks alike. -/
theorem step_inside (hnests : Eval.NestsAtMost limit program) (hlimit : limit < depthLimit)
    (h : Mirrors inside region program elsewhere whole alone) (hinside : inside id) :
    Mirrors inside region program elsewhere (whole.perform (.step id))
        (alone.perform (.step id)) ∧
      (whole.roundOf? (.step id)).map RoundRecord.seen =
        (alone.roundOf? (.step id)).map RoundRecord.seen := by
  have hsettled : (Act.step id).Settled fun _ => True := trivial
  cases hnode : whole.nodes.find? id with
  | none =>
      have hown : alone.nodes.find? id = none := by
        rw [← Option.isNone_iff_eq_none, ← Option.not_isSome, h.isSome_find? hinside, hnode]
        rfl
      have hsame : whole.perform (.step id) = whole := step_unknown hnode
      have hsameAlone : alone.perform (.step id) = alone := step_unknown hown
      rw [hsame, hsameAlone, roundOf?, roundOf?, hnode, hown]
      exact ⟨h, rfl⟩
  | some node =>
      obtain ⟨own, hown, hmirrored⟩ := h.exists_own hinside hnode
      obtain ⟨hprogram, hreads⟩ := h.branches id node hnode
      rw [hinside] at hreads
      obtain ⟨hdevice, hshown, hoffered⟩ := hmirrored.device.round hnests hlimit hprogram
        hmirrored.runs (h.confined_setting hinside hnode hown hmirrored.sensors) hreads
      obtain ⟨counters, hstep⟩ := perform_step hnode
      obtain ⟨counters', hstepAlone⟩ := perform_step hown
      refine ⟨?_, ?_⟩
      -- The counters of the two exchanges part, as the device may have neighbors outside.
      · constructor
        case live => exact h.live.perform hsettled
        case aloneLive => exact h.aloneLive.perform hsettled
        case now =>
          rw [hstep, hstepAlone]
          exact h.now
        case staleness =>
          rw [(h.live.orderly.perform_hub _).2, (h.aloneLive.orderly.perform_hub _).2]
          exact h.staleness
        case links =>
          rw [hstep, hstepAlone]
          exact h.links
        case branches => exact fun other found hfound => h.branches_step hnode hfound
        case devices =>
          intro other hother
          rw [hstep, hstepAlone]
          dsimp only
          rw [Dict.find?_insert, Dict.find?_insert]
          split
          · have hsame := own.device.same_take (.round (alone.settingOf own))
            exact .some ⟨hdevice, hmirrored.sensors, hsame.program.trans hmirrored.runs⟩
          · exact h.devices other hother
        case receipts =>
          exact fun other sender hother hsender =>
            h.receipts_step hnode hown hoffered hother hsender
        case foreign =>
          exact fun other sender arrival hother hsender hreceipt =>
            h.foreign_step hnode hother hsender hreceipt
      · rw [seen_step hnode, seen_step hown, hshown, h.now]

/-- A step of a device outside happens in the whole network only, and nobody inside notices. -/
theorem step_outside (h : Mirrors inside region program elsewhere whole alone)
    (houtside : inside id = false) :
    Mirrors inside region program elsewhere (whole.perform (.step id)) alone := by
  have hsettled : (Act.step id).Settled fun _ => True := trivial
  cases hnode : whole.nodes.find? id with
  | none =>
      have hsame : whole.perform (.step id) = whole := step_unknown hnode
      rw [hsame]
      exact h
  | some node =>
      have hapart : ∀ {other}, inside other → other ≠ id := by
        rintro other hother rfl
        rw [houtside] at hother
        cases hother
      obtain ⟨counters, hstep⟩ := perform_step hnode
      constructor
      case live => exact h.live.perform hsettled
      case aloneLive => exact h.aloneLive
      case now =>
        rw [hstep]
        exact h.now
      case staleness => exact (h.live.orderly.perform_hub _).2.trans h.staleness
      case links =>
        rw [hstep]
        exact h.links
      case branches => exact fun other found hfound => h.branches_step hnode hfound
      case devices =>
        intro other hother
        rw [hstep]
        dsimp only
        rw [Dict.find?_insert, if_neg (hapart hother)]
        exact h.devices other hother
      case receipts =>
        intro other sender hother hsender
        have hunsent : ¬(sender = id ∧ whole.topology.Linked id other ∧ other ≠ id ∧
            (whole.nodes.find? other).isSome) := fun hall => hapart hsender hall.1
        rw [h.live.receipt_step hnode, if_neg hunsent, if_neg (hapart hother)]
        exact h.receipts other sender hother hsender
      case foreign =>
        exact fun other sender arrival hother hsender hreceipt =>
          h.foreign_step hnode hother hsender hreceipt

/-! ## Everything else -/

/-- Links change in the whole network, and in the region those that lie inside. -/
theorem relink (h : Mirrors inside region program elsewhere whole alone)
    {topology topology' : Topology} (hlinks : topology.Induces inside topology')
    (hlive : Live { whole with topology := topology })
    (haloneLive : Live { alone with topology := topology' }) :
    Mirrors inside region program elsewhere { whole with topology := topology }
      { alone with topology := topology' } :=
  { h with live := hlive, aloneLive := haloneLive, links := hlinks }

theorem advance (h : Mirrors inside region program elsewhere whole alone) (ms : Nat) :
    Mirrors inside region program elsewhere (whole.perform (.advance ms))
      (alone.perform (.advance ms)) := by
  have hsettled : (Act.advance ms).Settled fun _ => True := trivial
  exact { h with
    live := h.live.perform hsettled
    aloneLive := h.aloneLive.perform hsettled
    now := congrArg (· + ms) h.now }

section Sensors

variable {change : SensorTable → SensorTable}
  (hkeeps : ∀ t, (change t).sensors.sense region = t.sensors.sense region)

include hkeeps

theorem branches_changeSensors (h : Mirrors inside region program elsewhere whole alone)
    (hnode : (whole.perform (.changeSensors id change)).nodes.find? other = some node) :
    node.device.program = .branch (.sense region) program elsewhere ∧
      node.sensors.sensors.sense region = some (.bool (inside other)) := by
  rw [find?_changeSensors] at hnode
  split at hnode
  · rename_i heq
    obtain ⟨before, hbefore, rfl⟩ := Option.map_eq_some_iff.mp hnode
    obtain ⟨hprogram, hreads⟩ := h.branches id before hbefore
    exact ⟨hprogram, (hkeeps _).trans (heq ▸ hreads)⟩
  · exact h.branches other node hnode

/-- The sensors of a device change in both networks. -/
theorem changeSensors_inside (h : Mirrors inside region program elsewhere whole alone)
    (id : DeviceId) :
    Mirrors inside region program elsewhere (whole.perform (.changeSensors id change))
      (alone.perform (.changeSensors id change)) := by
  have hsettled : (Act.changeSensors id change).Settled fun _ => True := trivial
  have hrearranges : (Act.changeSensors id change).rearranges := rfl
  constructor
  case live => exact h.live.perform hsettled
  case aloneLive => exact h.aloneLive.perform hsettled
  case now => exact h.now
  case staleness => exact h.staleness
  case links => exact h.links
  case branches => exact fun other node hnode => h.branches_changeSensors hkeeps hnode
  case devices =>
    intro other hother
    have hdevices := h.devices other hother
    rw [find?_changeSensors, find?_changeSensors]
    split
    · rename_i heq
      rw [heq] at hdevices
      generalize whole.nodes.find? id = found at hdevices ⊢
      generalize alone.nodes.find? id = found' at hdevices ⊢
      cases hdevices with
      | none => exact .none
      | some hmirrored =>
          exact .some ⟨hmirrored.device, congrArg change hmirrored.sensors, hmirrored.runs⟩
    · exact hdevices
  case receipts =>
    intro other sender hother hsender
    rw [receipt_perform whole hrearranges, receipt_perform alone hrearranges]
    exact h.receipts other sender hother hsender
  case foreign =>
    intro other sender arrival hother hsender hreceipt
    rw [receipt_perform whole hrearranges] at hreceipt
    exact h.foreign other sender arrival hother hsender hreceipt

theorem changeSensors_outside (h : Mirrors inside region program elsewhere whole alone)
    (houtside : inside id = false) :
    Mirrors inside region program elsewhere (whole.perform (.changeSensors id change)) alone := by
  have hsettled : (Act.changeSensors id change).Settled fun _ => True := trivial
  have hrearranges : (Act.changeSensors id change).rearranges := rfl
  constructor
  case live => exact h.live.perform hsettled
  case aloneLive => exact h.aloneLive
  case now => exact h.now
  case staleness => exact h.staleness
  case links => exact h.links
  case branches => exact fun other node hnode => h.branches_changeSensors hkeeps hnode
  case devices =>
    intro other hother
    have hapart : other ≠ id := by
      rintro rfl
      rw [houtside] at hother
      cases hother
    rw [find?_changeSensors, if_neg hapart]
    exact h.devices other hother
  case receipts =>
    intro other sender hother hsender
    rw [receipt_perform whole hrearranges]
    exact h.receipts other sender hother hsender
  case foreign =>
    intro other sender arrival hother hsender hreceipt
    rw [receipt_perform whole hrearranges] at hreceipt
    exact h.foreign other sender arrival hother hsender hreceipt

end Sensors

end Mirrors

/-- Whether an act is about the region alone. -/
def Act.within (inside : DeviceId → Bool) : Act → Bool
  | .step id | .changeSensors id _ => inside id
  | .link a b | .unlink a b => inside a && inside b
  | _ => true

theorem within_of_roundOf? {net : Network} {r : RoundRecord} (h : net.roundOf? act = some r) :
    act.within inside = inside r.id := by
  obtain ⟨id, node, rfl, -, rfl⟩ := exists_of_roundOf? h
  rfl

namespace Mirrors

/-- An act within the region happens in both networks, and shows the same. -/
theorem act_within (hnests : Eval.NestsAtMost limit program) (hlimit : limit < depthLimit)
    (h : Mirrors inside region program elsewhere whole alone)
    (hact : act.Settled fun change => ∀ t, (change t).sensors.sense region = t.sensors.sense region)
    (hwithin : act.within inside) :
    Mirrors inside region program elsewhere (whole.perform act) (alone.perform act) ∧
      (whole.roundOf? act).map RoundRecord.seen = (alone.roundOf? act).map RoundRecord.seen := by
  cases act with
  | step id => exact h.step_inside hnests hlimit hwithin
  | advance ms => exact ⟨h.advance ms, rfl⟩
  | link a b =>
      obtain ⟨ha, hb⟩ := Bool.and_eq_true_iff.mp hwithin
      exact ⟨h.relink (h.links.link ha hb) (h.live.perform hact) (h.aloneLive.perform hact), rfl⟩
  | unlink a b =>
      exact ⟨h.relink (h.links.unlink a b) (h.live.perform hact) (h.aloneLive.perform hact), rfl⟩
  | changeSensors id change => exact ⟨h.changeSensors_inside hact id, rfl⟩
  | _ => cases hact

/-- An act that is not about the region alone happens in the whole network only. -/
theorem act_across (h : Mirrors inside region program elsewhere whole alone)
    (hact : act.Settled fun change => ∀ t, (change t).sensors.sense region = t.sensors.sense region)
    (hacross : act.within inside = false) :
    Mirrors inside region program elsewhere (whole.perform act) alone := by
  have hapart : ∀ {a b}, (inside a && inside b) = false → ¬(inside a ∧ inside b) := by
    rintro a b hfalse ⟨ha, hb⟩
    rw [ha, hb] at hfalse
    cases hfalse
  cases act with
  | step id => exact h.step_outside hacross
  | link a b =>
      exact h.relink (h.links.link_across (hapart hacross)) (h.live.perform hact) h.aloneLive
  | unlink a b =>
      exact h.relink (h.links.unlink_across (hapart hacross)) (h.live.perform hact) h.aloneLive
  | changeSensors id change => exact h.changeSensors_outside hact hacross
  | advance ms => cases hacross
  | _ => cases hact

/-! ## Whole runs -/

/-- Before any device has done a round. -/
theorem simulationWith (topology : Topology) (inside : DeviceId → Bool) (region : String)
    (program elsewhere : Expr) (pacing : Pacing) :
    Mirrors inside region program elsewhere
      (Network.simulationWith (.branch (.sense region) program elsewhere) topology pacing region
        fun id => .bool (inside id))
      (Network.simulationWith program (topology.induced inside) pacing region
        fun id => .bool (inside id)) := by
  constructor
  case live => exact .simulationWith _ _ _ _ _
  case aloneLive => exact .simulationWith _ _ _ _ _
  case now => rw [now_simulationWith, now_simulationWith]
  case staleness => rw [staleness_simulationWith, staleness_simulationWith]
  case links =>
    rw [topology_simulationWith, topology_simulationWith]
    exact topology.induces_induced inside
  case branches =>
    intro id node hnode
    obtain ⟨hdevice, hsensors⟩ := find?_simulationWith hnode
    rw [hdevice, hsensors]
    exact ⟨rfl, Dict.find?_insert_self _ _ _⟩
  case devices =>
    intro id hinside
    have hpresent : id ∈ (topology.induced inside).devices ↔ id ∈ topology.devices := by
      rw [Topology.mem_devices_induced]
      simp [hinside]
    rw [← isSome_simulationWith program pacing region fun id => .bool (inside id),
      ← isSome_simulationWith (.branch (.sense region) program elsewhere) pacing region
        fun id => .bool (inside id)] at hpresent
    cases hnode : (Network.simulationWith (.branch (.sense region) program elsewhere) topology
        pacing region fun id => .bool (inside id)).nodes.find? id with
    | none =>
        rw [hnode, Option.isSome_none] at hpresent
        have hown : (Network.simulationWith program (topology.induced inside) pacing region
            fun id => .bool (inside id)).nodes.find? id = none :=
          Option.not_isSome_iff_eq_none.mp fun hsome => Bool.false_ne_true (hpresent.mp hsome)
        rw [hown]
        exact .none
    | some node =>
        rw [hnode, Option.isSome_some] at hpresent
        obtain ⟨own, hown⟩ := Option.isSome_iff_exists.mp (hpresent.mpr rfl)
        obtain ⟨hdevice, hsensors⟩ := find?_simulationWith hnode
        obtain ⟨hownDevice, hownSensors⟩ := find?_simulationWith hown
        rw [hown]
        refine .some ⟨?_, hsensors.trans hownSensors.symm, by rw [hownDevice]; rfl⟩
        rw [hdevice, hownDevice]
        exact ⟨rfl, rfl, fun _ _ => rfl, .none, rfl⟩
  case receipts =>
    intro id sender _ _
    rw [receipt_simulationWith, receipt_simulationWith]
    exact .none
  case foreign =>
    intro id sender arrival _ _ hreceipt
    rw [receipt_simulationWith] at hreceipt
    cases hreceipt

/-- In the region both networks show the same. -/
theorem seen_history (hnests : Eval.NestsAtMost limit program) (hlimit : limit < depthLimit)
    (h : Mirrors inside region program elsewhere whole alone) {acts : List Act}
    (hacts : ∀ act ∈ acts,
      act.Settled fun change => ∀ t, (change t).sensors.sense region = t.sensors.sense region) :
    ((whole.history acts).filter fun r => inside r.id).map RoundRecord.seen =
      (alone.history (acts.filter (Act.within inside))).map RoundRecord.seen := by
  induction acts generalizing whole alone with
  | nil => rfl
  | cons act rest ih =>
      have hact := hacts act List.mem_cons_self
      have hrest := fun other hother => hacts other (List.mem_cons_of_mem act hother)
      have hround : ((whole.roundOf? act).toList.filter fun r => inside r.id) =
          if act.within inside then (whole.roundOf? act).toList else [] := by
        cases hrecord : whole.roundOf? act with
        | none => exact (ite_self _).symm
        | some r =>
            rw [within_of_roundOf? hrecord]
            cases hinside : inside r.id <;> simp [hinside]
      rw [history, List.filter_append, List.map_append, hround]
      cases hwithin : act.within inside with
      | true =>
          obtain ⟨hnext, hseen⟩ := h.act_within hnests hlimit hact hwithin
          rw [List.filter_cons_of_pos hwithin, history, List.map_append, ih hnext hrest,
            if_pos rfl, ← Option.toList_map, hseen, Option.toList_map]
      | false =>
          rw [List.filter_cons_of_neg (Bool.not_eq_true _ ▸ hwithin),
            ih (h.act_across hact hwithin) hrest]
          rfl

/-- Whatever devices outside do, they take the other side. -/
theorem outside_history (hnests : Eval.NestsAtMost limit program) (hlimit : limit < depthLimit)
    (h : Mirrors inside region program elsewhere whole alone) {acts : List Act}
    (hacts : ∀ act ∈ acts,
      act.Settled fun change => ∀ t, (change t).sensors.sense region = t.sensors.sense region)
    {r : RoundRecord} (hr : r ∈ whole.history acts) :
    r.node.device.program = .branch (.sense region) program elsewhere ∧
      r.node.sensors.sensors.sense region = some (.bool (inside r.id)) ∧
      r.outcome = (r.node.device.round (r.before.settingOf r.node)).2 := by
  induction acts generalizing whole alone with
  | nil => cases hr
  | cons act rest ih =>
      have hact := hacts act List.mem_cons_self
      have hrest := fun other hother => hacts other (List.mem_cons_of_mem act hother)
      rw [history] at hr
      rcases List.mem_append.mp hr with hfirst | hlater
      · have hrecord : whole.roundOf? act = some r := Option.mem_toList.mp hfirst
        obtain ⟨hprogram, hreads⟩ := h.branches r.id r.node (found_of_roundOf? hrecord)
        refine ⟨hprogram, hreads, ?_⟩
        obtain ⟨id, node, -, -, rfl⟩ := exists_of_roundOf? hrecord
        exact whole.outcome_stepNode id node
      · cases hwithin : act.within inside with
        | true => exact ih (h.act_within hnests hlimit hact hwithin).1 hrest hlater
        | false => exact ih (h.act_across hact hwithin) hrest hlater

end Mirrors

end Network

namespace Region

open Network

/-- On the other side of the branch a literal is all that a round comes to. -/
theorem evaluate_outside {region : String} {inside : Expr} {value : Value} {inputs : RoundInputs}
    (hreads : inputs.sensors.sense region = some (.bool false)) :
    ∃ exported, evaluate (.branch (.sense region) inside (.literal value)) inputs =
      .ok ⟨value, exported⟩ := by
  rw [evaluate_branch hreads]
  exact ⟨_, rfl⟩

/-- While devices do rounds in any order, sensors other than the one of the region change, links
come and go and time passes, a device of the region shows in each of its rounds what it shows in a
network of the region alone, in which the acts of the devices outside, and those on their links, are
left out. A device outside yields infinity. -/
theorem shows_as_alone (topology : Topology) (inside : DeviceId → Bool) (region source : String)
    (pacing : Pacing) (acts : List Act)
    (hacts : ∀ act ∈ acts,
      act.Settled fun change => ∀ t, (change t).sensors.sense region = t.sensors.sense region) :
    let whole := simulationWith (Library.regionGradient region source) topology pacing region
      fun id => .bool (inside id)
    let alone := simulationWith (Library.hopGradient source) (topology.induced inside) pacing region
      fun id => .bool (inside id)
    ((whole.history acts).filter fun r => inside r.id).map RoundRecord.seen =
        (alone.history (acts.filter (Act.within inside))).map RoundRecord.seen ∧
      ∀ r ∈ whole.history acts, inside r.id = false →
        ∃ report, r.report? = some report ∧ report.value = .number .infinity := by
  intro whole alone
  have hnests := Eval.nestsAtMost_hopGradient source
  have hlimit : 6 < depthLimit := by decide
  have hmirrors := Mirrors.simulationWith topology inside region (Library.hopGradient source)
    Library.infinity pacing
  refine ⟨hmirrors.seen_history hnests hlimit hacts, ?_⟩
  intro r hr houtside
  obtain ⟨hprogram, hreads, houtcome⟩ := hmirrors.outside_history hnests hlimit hacts hr
  rw [houtside] at hreads
  obtain ⟨exported, hresult⟩ : ∃ exported, evaluate r.node.device.program
      (r.node.device.inputs (r.before.settingOf r.node)) = .ok ⟨.number .infinity, exported⟩ := by
    rw [hprogram]
    exact evaluate_outside hreads
  rw [Device.round_of_ok hresult] at houtcome
  rw [RoundRecord.report?, houtcome]
  exact ⟨_, rfl, rfl⟩

/-! ## A line through a device outside -/

/-- The device in the middle of a line is not of the region. -/
def notBetween (id : DeviceId) : Bool := id ≠ ⟨"d1"⟩

/-- The ends of a line of three learn of each other only by a link around the middle, and forget
what they have not heard for long. -/
def besideLine : List Act :=
  [.changeSensors ⟨"d0"⟩ fun t => t.set "source" (.bool true),
    .changeSensors ⟨"d2"⟩ fun t => t.set "source" (.bool false), .step ⟨"d0"⟩, .step ⟨"d1"⟩,
    .step ⟨"d2"⟩, .link ⟨"d0"⟩ ⟨"d2"⟩, .step ⟨"d0"⟩, .step ⟨"d1"⟩, .step ⟨"d2"⟩, .advance 3000,
    .step ⟨"d2"⟩, .changeSensors ⟨"d2"⟩ fun t => t.remove "source", .step ⟨"d2"⟩]

/-- The number that a round shows, unless it fails. -/
def shownNumber (seen : DeviceId × Nat × Except Fault (Value × Bool)) : Option (Option Number) :=
  seen.2.2.toOption.map fun shown => shown.1.asNumber.toOption

theorem besideLine_shows_as_alone :
    let whole := simulationWith (Library.regionGradient "region" "source") (.line 3) default
      "region" fun id => .bool (notBetween id)
    ((whole.history besideLine).filter fun r => notBetween r.id).map (fun r => shownNumber r.seen) =
        [some (some 0), some (some .infinity), some (some 0), some (some 1),
          some (some .infinity), none] ∧
      ∀ r ∈ whole.history besideLine, notBetween r.id = false →
        ∃ report, r.report? = some report ∧ report.value = .number .infinity := by
  have hset : ∀ (value : Value) (t : SensorTable),
      (t.set "source" value).sensors.sense "region" = t.sensors.sense "region" :=
    fun value t => Dict.find?_insert_ne t.own (by decide) value
  have hremove : ∀ t : SensorTable,
      (t.remove "source").sensors.sense "region" = t.sensors.sense "region" :=
    fun t => (Dict.find?_erase t.own _ _).trans (if_neg (by decide))
  have hsettled : ∀ act ∈ besideLine, act.Settled fun change =>
      ∀ t, (change t).sensors.sense "region" = t.sensors.sense "region" := by
    simp only [besideLine, List.mem_cons, List.not_mem_nil, or_false, forall_eq_or_imp, forall_eq,
      Act.Settled, hset, hremove, implies_true, and_self]
  obtain ⟨hinside, houtside⟩ :=
    shows_as_alone (.line 3) notBetween "region" "source" default besideLine hsettled
  refine ⟨?_, houtside⟩
  have hnumbers := congrArg (List.map shownNumber) hinside
  rw [List.map_map] at hnumbers
  refine hnumbers.trans ?_
  decide +kernel

end Region

end FieldCalculus
