import FieldCalculus.Proofs.Runs

/-!
How old the exports are that take part in a round. Whatever stands in a table or waits in a
queue was handed to the exchange in a round that lies behind. A direct hub notes the time of
handing over; a queued hub notes when the recipient collects, so that there the age counts
from the first round of the recipient after it.
-/

namespace FieldCalculus.Network

variable {net next : Network} {past : List RoundRecord} {id : DeviceId} {node : Node}

/-- The device handed a message to the exchange in this round. -/
structure RoundRecord.Handed (r : RoundRecord) (message : Message) : Prop where
  offered : r.offered = some message
  sender : message.sender = r.id

/-- A message handed over since the device last collected. -/
def Waiting (past : List RoundRecord) (id : DeviceId) (message : Message) : Prop :=
  ∃ r ∈ past, r.Handed message ∧ ∀ other ∈ past, other.id = id → other.time ≤ r.time

/-- A message handed over, and noted by a device no later than in its next round. -/
def Arrived (delivery : Delivery) (past : List RoundRecord) (id : DeviceId) (now : Nat)
    (arrival : Arrival) : Prop :=
  arrival.receivedAt ≤ now ∧ ∃ r ∈ past, r.Handed arrival.message ∧
    (delivery = .direct → arrival.receivedAt = r.time) ∧
    ∀ other ∈ past, other.id = id → r.time < other.time → arrival.receivedAt ≤ other.time

/-- Where an endpoint of a device has everything from. -/
structure Sourced (delivery : Delivery) (past : List RoundRecord) (id : DeviceId) (now : Nat)
    (e : Endpoint) : Prop where
  waiting : ∀ message ∈ e.queue, delivery = .queued ∧ Waiting past id message
  arrived : ∀ sender arrival, e.table.entries.find? sender = some arrival →
    arrival.message.sender = sender ∧ Arrived delivery past id now arrival

def Owns (net : Network) (id : DeviceId) (number : Nat) : Prop :=
  ∃ node, net.nodes.find? id = some node ∧ node.endpoint = number

/-- Everything that the devices have comes from rounds that lie behind. -/
structure Traced (net : Network) (past : List RoundRecord) : Prop where
  orderly : net.Orderly
  times : ∀ r ∈ past, r.time ≤ net.now
  sourced : net.hub.Each fun number e => ∀ id, net.Owns id number →
    Sourced net.hub.delivery past id net.now e

theorem owns_of_plug
    (hplug : ∀ id, (next.nodes.find? id).map Node.plug = (net.nodes.find? id).map Node.plug)
    {number : Nat} (h : next.Owns id number) : net.Owns id number := by
  obtain ⟨node, hnode, hnumber⟩ := h
  obtain ⟨before, hbefore, heq⟩ := find?_of_plug hplug hnode
  have hendpoint : before.endpoint = node.endpoint := congrArg (fun p => p.2.1) heq
  exact ⟨before, hbefore, hendpoint.trans hnumber⟩

namespace Sourced

variable {delivery : Delivery} {now later : Nat} {e : Endpoint}

theorem empty (delivery : Delivery) (past : List RoundRecord) (id owner : DeviceId)
    (now staleness : Nat) (held : Bool) :
    Sourced delivery past id now ⟨owner, .empty staleness, [], held⟩ := by
  constructor
  · intro message hmem
    cases hmem
  · intro sender arrival harrival
    cases harrival

theorem mono (h : Sourced delivery past id now e) (hle : now ≤ later) :
    Sourced delivery past id later e := by
  refine ⟨h.waiting, ?_⟩
  intro sender arrival harrival
  obtain ⟨hsender, hreceived, hsource⟩ := h.arrived sender arrival harrival
  exact ⟨hsender, Nat.le_trans hreceived hle, hsource⟩

/-- Collecting notes what waits as of now, before which the device has done no round since
it was handed over. -/
theorem collect (h : Sourced delivery past id now e) :
    Sourced delivery past id now { e with table := e.table.storeAll e.queue now, queue := [] } := by
  constructor
  · intro message hmem
    cases hmem
  · intro sender arrival harrival
    rcases NeighborTable.mem_or_find?_storeAll harrival with ⟨hmem, hsender, hnow⟩ | hstored
    · obtain ⟨hqueued, r, hr, hhanded, hsince⟩ := h.waiting _ hmem
      refine ⟨hsender, Nat.le_of_eq hnow, r, hr, hhanded, ?_, ?_⟩
      · intro hdirect
        rw [hqueued] at hdirect
        cases hdirect
      · intro other hother hid hlater
        exact absurd (hsince other hother hid) (Nat.not_le_of_lt hlater)
    · exact h.arrived sender arrival hstored

theorem evict (h : Sourced delivery past id now e) :
    Sourced delivery past id now { e with table := e.table.evictStale now } := by
  refine ⟨h.waiting, ?_⟩
  intro sender arrival harrival
  rw [NeighborTable.find?_evictStale, NeighborTable.fresh?, Option.filter_eq_some_iff] at harrival
  exact h.arrived sender arrival harrival.1

/-- One more round, which the device itself began by collecting. -/
theorem record (h : Sourced delivery past id now e) {new : RoundRecord} (htime : new.time = now)
    (hqueue : new.id = id → e.queue = []) : Sourced delivery (past ++ [new]) id now e := by
  constructor
  · intro message hmem
    obtain ⟨hqueued, r, hr, hhanded, hsince⟩ := h.waiting message hmem
    refine ⟨hqueued, r, List.mem_append_left _ hr, hhanded, ?_⟩
    intro other hother hid
    rcases List.mem_append.mp hother with hold | hnew
    · exact hsince other hold hid
    · -- Nothing is left to wait in the queue of the device that does the round.
      rw [List.mem_singleton.mp hnew] at hid
      rw [hqueue hid] at hmem
      cases hmem
  · intro sender arrival harrival
    obtain ⟨hsender, hreceived, r, hr, hhanded, hdirect, hnext⟩ := h.arrived sender arrival harrival
    refine ⟨hsender, hreceived, r, List.mem_append_left _ hr, hhanded, hdirect, ?_⟩
    intro other hother hid hlater
    rcases List.mem_append.mp hother with hold | hnew
    · exact hnext other hold hid hlater
    · rw [List.mem_singleton.mp hnew, htime]
      exact hreceived

/-- A message reaches an endpoint in the round in which it is handed over. -/
theorem reach (h : Sourced delivery past id now e) (htimes : ∀ r ∈ past, r.time ≤ now)
    {r : RoundRecord} (hr : r ∈ past) {message : Message} (hhanded : r.Handed message)
    (htime : r.time = now) :
    Sourced delivery past id now (Endpoint.reach delivery message now e) := by
  cases delivery with
  | direct =>
      refine ⟨h.waiting, ?_⟩
      intro sender arrival harrival
      rw [Endpoint.reach, NeighborTable.find?_store] at harrival
      split at harrival
      · rename_i heq
        cases harrival
        refine ⟨heq.symm, Nat.le_refl _, r, hr, hhanded, fun _ => htime.symm, ?_⟩
        intro other _ _ hlater
        rw [← htime]
        exact Nat.le_of_lt hlater
      · exact h.arrived sender arrival harrival
  | queued =>
      refine ⟨?_, h.arrived⟩
      intro waiting hmem
      rcases List.mem_append.mp hmem with hold | hnew
      · exact h.waiting waiting hold
      · rw [List.mem_singleton.mp hnew]
        refine ⟨rfl, r, hr, hhanded, ?_⟩
        intro other hother _
        rw [htime]
        exact htimes other hother

end Sourced

namespace Traced

theorem swept (h : net.Traced past) (endpoint : Nat) :
    (net.swept endpoint).hub.Each fun number e => ∀ id, net.Owns id number →
      Sourced net.hub.delivery past id net.now e :=
  each_swept h.sourced (fun _ he id hid => (he id hid).collect)
    fun _ he id hid => (he id hid).evict

theorem swept_queue (net : Network) (endpoint : Nat) :
    (net.swept endpoint).hub.Each fun number e => number = endpoint → e.queue = [] := by
  intro number e he heq
  rw [heq] at he
  change ((net.hub.collect endpoint net.now).update endpoint _).endpoints.find? endpoint =
    some e at he
  rw [Hub.find?_update, if_pos rfl, Option.map_eq_some_iff] at he
  obtain ⟨collected, hcollected, rfl⟩ := he
  change (net.hub.update endpoint _).endpoints.find? endpoint = some collected at hcollected
  rw [Hub.find?_update, if_pos rfl, Option.map_eq_some_iff] at hcollected
  obtain ⟨before, -, rfl⟩ := hcollected
  rfl

/-- Once a round has begun, everything is sourced in it and in the rounds before it. -/
theorem begun (h : net.Traced past) (hnode : net.nodes.find? id = some node)
    (outcome : RoundOutcome) :
    (net.swept node.endpoint).hub.Each fun number e => ∀ owner, net.Owns owner number →
      Sourced net.hub.delivery (past ++ [⟨net, id, node, outcome⟩]) owner net.now e := by
  intro number e he owner howner
  refine (h.swept node.endpoint number e he owner howner).record rfl ?_
  rintro rfl
  obtain ⟨found, hfound, hnumber⟩ := howner
  rw [hnode] at hfound
  cases hfound
  exact swept_queue net node.endpoint number e he hnumber.symm

theorem round (h : net.Traced past) (hnode : net.nodes.find? id = some node)
    {outcome : RoundOutcome} (hresult : net.RoundResult id node next outcome) :
    next.Traced (past ++ [⟨net, id, node, outcome⟩]) := by
  have hbegun := h.begun hnode outcome
  have halike := net.swept_alike node.endpoint
  have htimes : ∀ r ∈ past ++ [⟨net, id, node, outcome⟩], r.time ≤ net.now := by
    intro r hr
    rcases List.mem_append.mp hr with hold | hnew
    · exact h.times r hold
    · rw [List.mem_singleton.mp hnew]
      exact Nat.le_refl _
  have hfinish : ∀ device hub, net.Turned id node device hub next →
      hub.delivery = net.hub.delivery →
      (hub.Each fun number e => ∀ owner, net.Owns owner number →
        Sourced net.hub.delivery (past ++ [⟨net, id, node, outcome⟩]) owner net.now e) →
      next.Traced (past ++ [⟨net, id, node, outcome⟩]) := by
    intro device hub hturned hdelivery heach
    refine ⟨h.orderly.round hnode hresult, ?_, ?_⟩
    · rw [hturned.now]
      exact htimes
    · rw [hturned.hub, hturned.now, hdelivery]
      exact fun number e he owner howner =>
        heach number e he owner (owns_of_plug (hturned.plug hnode) howner)
  cases hresult with
  | failed _ _ _ _ hturned => exact hfinish _ _ hturned halike.delivery hbegun
  | quiet _ _ _ _ _ _ hturned => exact hfinish _ _ hturned halike.delivery hbegun
  | offered _ hoffer hsender _ hpublication _ _ hturned =>
      refine hfinish _ _ hturned ?_ ?_
      · rw [hpublication, (Hub.publish_alike _ _ _ _).delivery, halike.delivery]
      · rw [hpublication]
        refine hbegun.publish ?_ _
        intro number e he owner howner
        rw [halike.delivery]
        refine (he owner howner).reach htimes (List.mem_append_right _ List.mem_cons_self) ?_ rfl
        exact ⟨hoffer, hsender.trans (h.orderly.device id node hnode)⟩

theorem keep (h : net.Traced past) (horderly : next.Orderly) (hnow : net.now ≤ next.now)
    (hdelivery : next.hub.delivery = net.hub.delivery)
    (heach : next.hub.Each fun number e => ∀ owner, next.Owns owner number →
      Sourced net.hub.delivery past owner net.now e) : next.Traced past := by
  refine ⟨horderly, fun r hr => Nat.le_trans (h.times r hr) hnow, ?_⟩
  rw [hdelivery]
  exact fun number e he owner howner => (heach number e he owner howner).mono hnow

theorem join (h : net.Traced past) (id : DeviceId) (program : Expr) (pacing : Pacing) :
    (net.perform (.join id program pacing)).Traced past := by
  refine h.keep (h.orderly.join id program pacing) (Nat.le_refl _)
    (net.alike_perform_join id program pacing).delivery ?_
  apply each_perform_join
  · intro number e he owner howner
    obtain ⟨node, hnode, hnumber⟩ := howner
    rw [find?_perform_join] at hnode
    split at hnode
    · -- The new device owns the new endpoint, and this one was there before.
      cases hnode
      have hbelow := h.orderly.numbered number (by rw [he]; rfl)
      exact absurd hnumber (Nat.ne_of_gt hbelow)
    · exact h.sourced number e he owner ⟨node, hnode, hnumber⟩
  · exact fun owner _ => .empty _ _ _ _ _ _ _
  · exact fun _ _ he owner howner => ⟨(he owner howner).waiting, (he owner howner).arrived⟩

theorem drop (h : net.Traced past) (id : DeviceId) : (net.perform (.drop id)).Traced past := by
  rcases net.perform_drop id with heq | ⟨endpoint, hhub, hnodes, hnow⟩
  · rw [heq]
    exact h
  · refine h.keep (h.orderly.drop id) (Nat.le_of_eq hnow.symm) ?_ ?_
    · rw [hhub]
      exact (Hub.Alike.drop net.hub endpoint).delivery
    · rw [hhub]
      intro number e he owner howner
      have howned : net.Owns owner number := by
        obtain ⟨node, hnode, hnumber⟩ := howner
        rw [hnodes, Dict.find?_erase] at hnode
        split at hnode
        · cases hnode
        · exact ⟨node, hnode, hnumber⟩
      refine Hub.Each.drop h.sourced ?_ endpoint number e he owner howned
      exact fun _ _ he owner howner => ⟨(he owner howner).waiting, (he owner howner).arrived⟩

/-- Whatever happens, everything comes from rounds that lie behind. -/
theorem act (h : net.Traced past) (act : Act) :
    (net.perform act).Traced (past ++ (net.roundOf? act).toList) := by
  cases h.orderly.act act with
  | unknown hsame hnone =>
      rw [hsame, hnone, Option.toList_none, List.append_nil]
      exact h
  | round hnode hrecord hresult =>
      rw [hrecord]
      exact h.round hnode hresult
  | joined hwhich =>
      rw [hwhich]
      change (net.perform _).Traced (past ++ [])
      rw [List.append_nil]
      exact h.join _ _ _
  | dropped hwhich =>
      rw [hwhich]
      change (net.perform _).Traced (past ++ [])
      rw [List.append_nil]
      exact h.drop _
  | rearranged hnone hrearranged =>
      rw [hnone, Option.toList_none, List.append_nil]
      refine h.keep (h.orderly.perform act) hrearranged.now hrearranged.alike.delivery ?_
      exact hrearranged.each fun number e he owner howner =>
        h.sourced number e he owner (owns_of_plug hrearranged.plug howner)

/-- What a device hears was handed to the exchange by its sender. -/
theorem handed_of_heard (h : net.Traced past) (hnode : net.nodes.find? id = some node)
    {sender : DeviceId} {exported : Export} (hheard : (net.heard node).find? sender = some exported) :
    ∃ r ∈ past, ∃ message, r.Handed message ∧ message.exported = exported := by
  obtain ⟨-, arrival, hfresh, hexported⟩ := NeighborTable.fresh_of_find?_snapshot hheard
  rw [NeighborTable.fresh?, Option.filter_eq_some_iff] at hfresh
  have hpresent := h.orderly.present id node hnode
  rw [← (net.swept_alike node.endpoint).present] at hpresent
  obtain ⟨e, he⟩ := Option.isSome_iff_exists.mp hpresent
  have htable : (net.swept node.endpoint).inbox node = e.table := by
    rw [inbox, Hub.table, he]
  rw [htable] at hfresh
  obtain ⟨-, -, r, hr, hhanded, -⟩ :=
    (h.swept node.endpoint _ e he id ⟨node, hnode, rfl⟩).arrived sender arrival hfresh.1
  exact ⟨r, hr, arrival.message, hhanded, hexported⟩

theorem run (program : Expr) (pacing : Pacing) (delivery : Delivery) (topology : Topology)
    (neighborhood : Neighborhood) (acts : List Act) :
    ((Network.empty program pacing delivery topology neighborhood).run acts).Traced
      ((Network.empty program pacing delivery topology neighborhood).history acts) := by
  refine run_invariant (fun _ => True) Traced ?_ (fun _ _ act h _ => h.act act) fun _ _ => trivial
  refine ⟨.empty _ _ _ _ _, ?_, ?_⟩
  · intro r hr
    cases hr
  · intro number e he
    cases he

end Traced

/-- An export that takes part in a round was handed to the exchange in an earlier round of
its sender: over a direct hub no longer ago than the window, and over any hub no longer ago
than the window before a round that the recipient has done since. -/
theorem heard_within_window (program : Expr) (pacing : Pacing) (delivery : Delivery)
    (topology : Topology) (neighborhood : Neighborhood) (acts : List Act) (id sender : DeviceId)
    (node : Node) (exported : Export) :
    let start := Network.empty program pacing delivery topology neighborhood
    (start.run acts).nodes.find? id = some node →
    ((start.run acts).heard node).find? sender = some exported →
    ∃ r ∈ start.history acts, ∃ message, r.id = sender ∧ r.Handed message ∧
      message.exported = exported ∧
      (delivery = .direct → (start.run acts).now ≤ r.time + pacing.staleness.toNat) ∧
      ∀ other ∈ start.history acts, other.id = id → r.time < other.time →
        (start.run acts).now ≤ other.time + pacing.staleness.toNat := by
  intro start hnode hheard
  have htraced := Traced.run program pacing delivery topology neighborhood acts
  obtain ⟨hdelivery, hstaleness⟩ := (Orderly.empty program pacing delivery topology
    neighborhood).run_hub acts
  obtain ⟨-, arrival, hfresh, hexported⟩ := NeighborTable.fresh_of_find?_snapshot hheard
  rw [NeighborTable.fresh?, Option.filter_eq_some_iff] at hfresh
  obtain ⟨hfound, hfresh⟩ := hfresh
  -- The table that the round reads is the one at the device's own endpoint.
  have hpresent : ∃ e, ((start.run acts).swept node.endpoint).hub.endpoints.find? node.endpoint =
      some e := by
    rw [← Option.isSome_iff_exists, ((start.run acts).swept_alike node.endpoint).present]
    exact htraced.orderly.present id node hnode
  obtain ⟨e, he⟩ := hpresent
  have htable : ((start.run acts).swept node.endpoint).inbox node = e.table := by
    rw [inbox, Hub.table, he]
  rw [htable] at hfound hfresh
  have hwindow : e.table.staleness = pacing.staleness.toNat :=
    ((htraced.orderly.swept node.endpoint).1 _ e he).trans hstaleness
  have hage : (start.run acts).now ≤ arrival.receivedAt + pacing.staleness.toNat := by
    rw [NeighborTable.isFresh, hwindow, decide_eq_true_eq] at hfresh
    omega
  obtain ⟨hsender, -, r, hr, hhanded, hdirect, hnext⟩ :=
    (htraced.swept node.endpoint _ e he id ⟨node, hnode, rfl⟩).arrived sender arrival hfound
  refine ⟨r, hr, arrival.message, hhanded.sender.symm.trans hsender, hhanded, hexported, ?_, ?_⟩
  · intro heq
    rw [← hdirect (hdelivery.trans heq)]
    exact hage
  · intro other hother hid hlater
    have := hnext other hother hid hlater
    omega

/-! ## A device that is late to listen -/

/-- Two devices side by side, whose hub remembers for two seconds. -/
def twoBeside (delivery : Delivery) : Network :=
  .empty (.literal .unit) default delivery .empty .topology

/-- The first of two devices does a round, and then time passes. -/
def lateListener (ms : Nat) : List Act :=
  [.join ⟨"a"⟩ (.literal .unit) default, .join ⟨"b"⟩ (.literal .unit) default,
    .link ⟨"a"⟩ ⟨"b"⟩, .step ⟨"a"⟩, .advance ms]

theorem listener_heard_within_window : ∃ node,
    ((twoBeside .direct).run (lateListener 1500)).nodes.find? ⟨"b"⟩ = some node ∧
      (((twoBeside .direct).run (lateListener 1500)).heard node).find? ⟨"a"⟩ =
        some (.ofPuts [] .unit) ∧
      ∃ r ∈ (twoBeside .direct).history (lateListener 1500), r.id = ⟨"a"⟩ ∧
        ((twoBeside .direct).run (lateListener 1500)).now ≤ r.time + 2000 := by
  obtain ⟨node, hnode, hheard⟩ : ∃ node,
      ((twoBeside .direct).run (lateListener 1500)).nodes.find? ⟨"b"⟩ = some node ∧
        (((twoBeside .direct).run (lateListener 1500)).heard node).find? ⟨"a"⟩ =
          some (.ofPuts [] .unit) := ⟨_, rfl, rfl⟩
  obtain ⟨r, hr, -, hid, -, -, hdirect, -⟩ :=
    heard_within_window (.literal .unit) default .direct .empty .topology (lateListener 1500)
      ⟨"b"⟩ ⟨"a"⟩ node (.ofPuts [] .unit) hnode hheard
  exact ⟨node, hnode, hheard, r, hr, hid, hdirect rfl⟩

/-- No export takes part in a round over such a hub longer than the window after it was handed
over. -/
def HearsWithinWindow (delivery : Delivery) : Prop :=
  ∀ (program : Expr) (pacing : Pacing) (topology : Topology) (neighborhood : Neighborhood)
    (acts : List Act) (id sender : DeviceId) (node : Node) (exported : Export),
    let start := Network.empty program pacing delivery topology neighborhood
    (start.run acts).nodes.find? id = some node →
    ((start.run acts).heard node).find? sender = some exported →
    ∃ r ∈ start.history acts, ∃ message, r.id = sender ∧ r.Handed message ∧
      message.exported = exported ∧ (start.run acts).now ≤ r.time + pacing.staleness.toNat

/-- Over a queued hub the time that a message waits does not count. -/
theorem queued_hears_beyond_window : ¬HearsWithinWindow .queued := by
  intro h
  obtain ⟨node, hnode, hheard⟩ : ∃ node,
      ((twoBeside .queued).run (lateListener 5000)).nodes.find? ⟨"b"⟩ = some node ∧
        (((twoBeside .queued).run (lateListener 5000)).heard node).find? ⟨"a"⟩ =
          some (.ofPuts [] .unit) := ⟨_, rfl, rfl⟩
  obtain ⟨r, hr, -, -, -, -, hage⟩ := h (.literal .unit) default .empty .topology
    (lateListener 5000) ⟨"b"⟩ ⟨"a"⟩ node (.ofPuts [] .unit) hnode hheard
  have htimes : ((twoBeside .queued).history (lateListener 5000)).map RoundRecord.time = [0] := by
    decide +kernel
  have htime : r.time ∈ [0] := htimes ▸ List.mem_map_of_mem hr
  rw [List.mem_singleton.mp htime] at hage
  revert hage
  decide +kernel

end FieldCalculus.Network
