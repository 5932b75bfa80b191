import FieldCalculus.Proofs.Commuting
import FieldCalculus.Proofs.Eviction
import FieldCalculus.Proofs.Mailbox

/-!
What a round hears. Of all that has come to the endpoint of a device, a round depends on the fresh
exports of its current neighbors only. What else is there may differ in any way: the round comes to
the same, leaves the device the same, and hands the same message to the same recipients.
-/

namespace FieldCalculus

/-- What has come to an endpoint: what its table holds, and what waits to be collected. -/
structure Inbox where
  entries : Dict DeviceId Arrival
  waiting : List Message

def Endpoint.withInbox (e : Endpoint) (inbox : Inbox) : Endpoint :=
  { e with table := { e.table with entries := inbox.entries }, queue := inbox.waiting }

/-! ## Hubs that differ at one endpoint -/

namespace Hub

/-- The hubs differ in what has come to one endpoint at most. -/
structure Beside (number : Nat) (hub other : Hub) : Prop where
  delivery : other.delivery = hub.delivery
  registry : other.registry = hub.registry
  endpoints : ∀ another, another ≠ number →
    other.endpoints.find? another = hub.endpoints.find? another
  held : (other.endpoints.find? number).any Endpoint.held =
    (hub.endpoints.find? number).any Endpoint.held

namespace Beside

variable {hub other : Hub} {number : Nat} {change change' : Endpoint → Endpoint}

theorem refl (number : Nat) (hub : Hub) : Beside number hub hub := ⟨rfl, rfl, fun _ _ => rfl, rfl⟩

/-- Whatever comes to the one endpoint, on either side. -/
theorem updateOwn (h : Beside number hub other) (hheld : ∀ e, (change e).held = e.held)
    (hheld' : ∀ e, (change' e).held = e.held) :
    Beside number (hub.update number change) (other.update number change') := by
  refine ⟨h.delivery, h.registry, ?_, ?_⟩
  · intro another hanother
    rw [find?_update, find?_update, if_neg hanother, if_neg hanother, h.endpoints another hanother]
  · rw [any_held_update hheld, any_held_update hheld', h.held]

/-- What comes to any endpoint, on both sides alike. -/
theorem update (h : Beside number hub other) (hheld : ∀ e, (change e).held = e.held)
    (endpoint : Nat) :
    Beside number (hub.update endpoint change) (other.update endpoint change) := by
  refine ⟨h.delivery, h.registry, ?_, ?_⟩
  · intro another hanother
    rw [find?_update, find?_update]
    split
    · rename_i heq
      rw [← heq, h.endpoints another hanother]
    · exact h.endpoints another hanother
  · rw [any_held_update hheld, any_held_update hheld, h.held]

theorem any_held (h : Beside number hub other) (another : Nat) :
    (other.endpoints.find? another).any Endpoint.held =
      (hub.endpoints.find? another).any Endpoint.held := by
  by_cases heq : another = number
  · rw [heq, h.held]
  · rw [h.endpoints another heq]

theorem closed? (h : Beside number hub other) : other.closed? = hub.closed? := by
  funext recipient
  unfold Hub.closed?
  rw [h.delivery, h.registry]
  cases hub.delivery <;> cases hub.registry.find? recipient <;> simp [h.any_held]

/-- A message is handed over on both sides, or on neither. -/
theorem deliver (h : Beside number hub other) (message : Message) (now : Nat)
    (recipient : DeviceId) :
    (∃ fault, hub.deliver message now recipient = .error fault ∧
      other.deliver message now recipient = .error fault) ∨
    ∃ next next' stored, hub.deliver message now recipient = .ok (next, stored) ∧
      other.deliver message now recipient = .ok (next', stored) ∧ Beside number next next' := by
  unfold Hub.deliver
  rw [h.registry, h.delivery]
  cases hub.registry.find? recipient with
  | none => exact Or.inr ⟨_, _, _, rfl, rfl, h⟩
  | some endpoint =>
      cases hub.delivery with
      | direct => exact Or.inr ⟨_, _, _, rfl, rfl, h.update (by exact fun _ => rfl) endpoint⟩
      | queued =>
          dsimp only
          rw [h.any_held]
          split
          · exact Or.inr ⟨_, _, _, rfl, rfl, h.update (by exact fun _ => rfl) endpoint⟩
          · exact Or.inl ⟨_, rfl, rfl⟩

theorem publish (h : Beside number hub other) (message : Message) (now : Nat)
    (recipients : List DeviceId) :
    Beside number (hub.publish message now recipients).hub
      (other.publish message now recipients).hub := by
  induction recipients generalizing hub other with
  | nil => exact h
  | cons recipient rest ih =>
      rw [Hub.publish, Hub.publish]
      rcases h.deliver message now recipient with
        ⟨fault, hfault, hfault'⟩ | ⟨next, next', stored, hnext, hnext', hbeside⟩
      · rw [hfault, hfault']
        exact h
      · rw [hnext, hnext']
        exact ih hbeside

end Beside

end Hub

namespace Network

variable {net : Network} {id : DeviceId} {node : Node}

/-! ## What a round reads from an inbox -/

/-- The network in which this has come to the endpoint of a device, and nothing else. -/
def withInbox (net : Network) (node : Node) (inbox : Inbox) : Network :=
  { net with hub := net.hub.update node.endpoint fun e => e.withInbox inbox }

/-- The export that a device has of a sender once it has collected what waits, if it is fresh. -/
def freshExport? (net : Network) (node : Node) (sender : DeviceId) : Option Export :=
  (((net.collect node.endpoint).inbox node).latest? sender net.now).map Message.exported

/-- A round hears its neighbors' fresh exports. That it drops stale entries before it looks makes
no difference. -/
theorem find?_heard (net : Network) (node : Node) (other : DeviceId) :
    (net.heard node).find? other =
      if other ∈ (net.neighborsOf node).toList then net.freshExport? node other else none := by
  have hfresh : ((net.swept node.endpoint).inbox node).latest? other net.now =
      ((net.collect node.endpoint).inbox node).latest? other net.now := by
    unfold inbox NeighborTable.latest?
    rw [table_swept, NeighborTable.fresh?_evictStale (Nat.le_refl _)]
  rw [heard, NeighborTable.find?_snapshot, hfresh, freshExport?]

/-- What is fresh once messages came in is the last of them from the sender, or what was there. -/
theorem freshExport?_withInbox {e : Endpoint}
    (he : net.hub.endpoints.find? node.endpoint = some e) (inbox : Inbox) (sender : DeviceId) :
    (net.withInbox node inbox).freshExport? node sender =
      ((((inbox.waiting.filter (·.sender = sender)).getLast?.map (⟨·, net.now⟩)).or
        (inbox.entries.find? sender)).filter (e.table.isFresh · net.now)).map
          fun arrival => arrival.message.exported := by
  have hendpoint : (net.withInbox node inbox).hub.endpoints.find? node.endpoint =
      some (e.withInbox inbox) := by
    change (net.hub.update _ _).endpoints.find? _ = _
    rw [Hub.find?_update, if_pos rfl, he, Option.map_some]
  have htable : ((net.withInbox node inbox).collect node.endpoint).inbox node =
      (e.withInbox inbox).table.storeAll inbox.waiting net.now := by
    rw [Network.inbox, table_collect, hendpoint]
    rfl
  have hfresh : ((e.withInbox inbox).table.storeAll inbox.waiting net.now).isFresh =
      e.table.isFresh := by
    funext arrival now
    unfold NeighborTable.isFresh
    rw [NeighborTable.staleness_storeAll]
    rfl
  unfold freshExport? NeighborTable.latest? NeighborTable.fresh?
  rw [htable, NeighborTable.find?_storeAll, Option.map_map]
  change Option.map _ (Option.filter (fun arrival => NeighborTable.isFresh _ arrival net.now) _) = _
  rw [hfresh]
  rfl

/-- A device is not among its own neighbors. -/
theorem mem_neighborsOf_iff (net : Network) (node : Node) (other : DeviceId) :
    other ∈ (net.neighborsOf node).toList ↔
      other ∈ (net.announced node).toList ∧ other ≠ node.device.id := by
  unfold neighborsOf DeviceSet.toList
  rw [Dict.mem_keys, Dict.mem_keys, Dict.find?_erase]
  split
  · simp_all
  · simp_all

/-! ## Rounds that differ in what is not heard -/

/-- The next round of a device comes to the same in both networks, leaves the same devices behind,
and hands the same message to the same recipients, with the same effect at all endpoints but the
device's own. -/
structure StepsAlike (net next : Network) (id : DeviceId) (node : Node) : Prop where
  outcome : (next.step id).2 = (net.step id).2
  nodes : (next.step id).1.nodes = (net.step id).1.nodes
  recorder : (next.step id).1.recorder = (net.step id).1.recorder
  offered : next.offered node = net.offered node
  recipients : next.neighborsOf node = net.neighborsOf node
  endpoints : ∀ number, number ≠ node.endpoint →
    (next.step id).1.hub.endpoints.find? number = (net.step id).1.hub.endpoints.find? number

/-- A round that hears the same is the same. -/
theorem stepsAlike_of_heard (hnode : net.nodes.find? id = some node) {hub : Hub}
    (hhub : net.hub.Beside node.endpoint hub)
    (hheard : heard { net with hub := hub } node = net.heard node) :
    net.StepsAlike { net with hub := hub } id node := by
  let next : Network := { net with hub := hub }
  have haccepts : next.accepts node = net.accepts node := by
    unfold accepts
    rw [hhub.closed?]
    rfl
  have hsetting : next.settingOf node = net.settingOf node := by
    unfold settingOf
    rw [hheard, haccepts]
  have hoffered : next.offered node = net.offered node := by
    rw [offered_eq, offered_eq, hsetting]
  have hcollected : Hub.Beside node.endpoint (net.collect node.endpoint).hub
      (next.collect node.endpoint).hub :=
    hhub.updateOwn (by exact fun _ => rfl) (by exact fun _ => rfl)
  have hswept : Hub.Beside node.endpoint (net.swept node.endpoint).hub
      (next.swept node.endpoint).hub :=
    hcollected.updateOwn (by exact fun _ => rfl) (by exact fun _ => rfl)
  have hexchanged : Hub.Beside node.endpoint (net.exchanged node) (next.exchanged node) := by
    unfold exchanged offer
    rw [hoffered]
    cases net.offered node with
    | none => exact hswept
    | some message =>
        dsimp only
        split
        · exact hswept
        · exact hswept.publish message net.now _
  have hnext : next.nodes.find? id = some node := hnode
  have hstep := step_eq hnext
  constructor
  case outcome => rw [hstep, step_eq hnode, hsetting]
  case nodes => rw [hstep, step_eq hnode, hsetting]
  case recorder => rw [hstep, step_eq hnode, hsetting]
  case offered => exact hoffered
  case recipients => rfl
  case endpoints =>
    intro number hnumber
    rw [hstep, step_eq hnode]
    exact hexchanged.endpoints number hnumber

/-- Of what has come, that from current neighbors which is not stale. -/
def pruned (net : Network) (node : Node) (inbox : Inbox) : Inbox where
  entries := inbox.entries.filter fun sender arrival =>
    sender ∈ (net.neighborsOf node).toList && (net.inbox node).isFresh arrival net.now
  waiting := inbox.waiting.filter fun message => message.sender ∈ (net.neighborsOf node).toList

theorem freshExport?_pruned (inbox : Inbox) {other : DeviceId}
    (hother : other ∈ (net.neighborsOf node).toList) :
    (net.withInbox node (net.pruned node inbox)).freshExport? node other =
      (net.withInbox node inbox).freshExport? node other := by
  cases he : net.hub.endpoints.find? node.endpoint with
  | none =>
      have hnowhere : ∀ inbox, net.withInbox node inbox = net := by
        intro inbox
        have hsame : (net.hub.update node.endpoint fun e => e.withInbox inbox) = net.hub := by
          apply Hub.update_eq_self
          intro e hfound
          rw [he] at hfound
          cases hfound
        exact congrArg (fun hub => { net with hub := hub }) hsame
      rw [hnowhere, hnowhere]
  | some e =>
      have hfresh : (net.inbox node).isFresh = e.table.isFresh := by
        rw [Network.inbox, Hub.table, he]
      have hwaiting : (net.pruned node inbox).waiting.filter (·.sender = other) =
          inbox.waiting.filter (·.sender = other) := by
        rw [pruned, List.filter_filter]
        refine List.filter_congr fun message _ => ?_
        by_cases hsender : message.sender = other
        · simp [hsender, hother]
        · simp [hsender]
      have hentries : ((net.pruned node inbox).entries.find? other).filter
          (e.table.isFresh · net.now) =
            (inbox.entries.find? other).filter (e.table.isFresh · net.now) := by
        rw [pruned, Dict.find?_filter, Option.filter_filter]
        simp [hother, hfresh]
      rw [freshExport?_withInbox he, freshExport?_withInbox he, hwaiting]
      cases (inbox.waiting.filter (·.sender = other)).getLast? with
      | some message => rfl
      | none =>
          rw [Option.map_none, Option.none_or, Option.none_or, hentries]

/-- A round hears the fresh exports of its current neighbors, and nothing else. Whatever has come to
the endpoint of a device, if for each current neighbor other than the device itself the same fresh
export is there, or none, then the next round is the same: its outcome, the device that it leaves,
and the message that it hands to the exchange. So entries of devices that are no neighbors, entries
under the device's own id, and stale ones can be left out. -/
theorem hears_fresh_neighbors_only (hnode : net.nodes.find? id = some node) :
    (∀ first second : Inbox,
      (∀ other ∈ (net.announced node).toList, other ≠ node.device.id →
        (net.withInbox node second).freshExport? node other =
          (net.withInbox node first).freshExport? node other) →
      (net.withInbox node first).StepsAlike (net.withInbox node second) id node) ∧
    ∀ inbox : Inbox,
      (net.withInbox node inbox).StepsAlike (net.withInbox node (net.pruned node inbox)) id
        node := by
  have halike : ∀ first second : Inbox, (∀ other ∈ (net.neighborsOf node).toList,
      (net.withInbox node second).freshExport? node other =
        (net.withInbox node first).freshExport? node other) →
      (net.withInbox node first).StepsAlike (net.withInbox node second) id node := by
    intro first second hagree
    have hhub : Hub.Beside node.endpoint (net.withInbox node first).hub
        (net.withInbox node second).hub :=
      (Hub.Beside.refl _ _).updateOwn (by exact fun _ => rfl) (by exact fun _ => rfl)
    have hfirst : (net.withInbox node first).nodes.find? id = some node := hnode
    refine stepsAlike_of_heard hfirst hhub ?_
    apply Dict.ext_find?
    intro other
    change (heard (net.withInbox node second) node).find? other = _
    rw [find?_heard, find?_heard]
    change (if other ∈ (net.neighborsOf node).toList then _ else _) =
      if other ∈ (net.neighborsOf node).toList then _ else _
    split
    · exact hagree other ‹_›
    · rfl
  constructor
  case left =>
    intro first second hagree
    refine halike first second fun other hother => ?_
    obtain ⟨hannounced, hne⟩ := (net.mem_neighborsOf_iff node other).mp hother
    exact hagree other hannounced hne
  case right => exact fun inbox => halike _ _ fun other hother => freshExport?_pruned inbox hother

/-- The greatest of what the neighbors tell. -/
def greatestTold : Expr :=
  .foldPlus (.literal (.number 0)) (.literal (.builtin .max)) (.nbr (.literal (.number 1)))

/-- Three devices in a line, long after they started. -/
def lineOfThree : Network := (simulation greatestTold (.line 3) default).advance 20000

/-- The device between the other two. -/
def between : Node :=
  ⟨.start ⟨"d1"⟩ greatestTold default, .empty, 1, false, .empty ⟨"d1"⟩ 0⟩

/-- A message that tells a number. -/
def telling (sender : String) (round : UInt64) (n : Nat) : Message :=
  ⟨⟨sender⟩, round, .ofMillis 0, .ofPuts [([.foldHood 0, .nbr 0], .number (.ofNat n)),
    ([.foldHood 0], .number 0)] (.number 0)⟩

/-- One neighbor has told something lately. -/
def oneTold : Inbox := ⟨.ofList [(⟨"d0"⟩, ⟨telling "d0" 7 5, 20000⟩)], []⟩

/-- The same was told in another round, next to what does not count: from the other neighbor long
ago, under the device's own id, and by a stranger. -/
def oneToldAmongOthers : Inbox :=
  ⟨.ofList [(⟨"d0"⟩, ⟨telling "d0" 3 5, 18000⟩), (⟨"d1"⟩, ⟨telling "d1" 1 6, 20000⟩),
    (⟨"d2"⟩, ⟨telling "d2" 1 7, 17999⟩)], [telling "stranger" 1 8]⟩

theorem between_hears_fresh_neighbors_only :
    lineOfThree.nodes.find? ⟨"d1"⟩ = some between ∧
      ((lineOfThree.withInbox between oneTold).step ⟨"d1"⟩).2.any
        (fun outcome => outcome.toOption.any fun report =>
          report.value.equals (.number 5) && report.neighbors = 1 && report.published) ∧
      (lineOfThree.withInbox between oneTold).StepsAlike
        (lineOfThree.withInbox between oneToldAmongOthers) ⟨"d1"⟩ between := by
  have hnode : lineOfThree.nodes.find? ⟨"d1"⟩ = some between := by rfl
  have he : lineOfThree.hub.endpoints.find? between.endpoint =
      some ⟨⟨"d1"⟩, .empty 2000, [], true⟩ := by rfl
  have hannounced : (lineOfThree.announced between).toList = [⟨"d0"⟩, ⟨"d2"⟩] := by rfl
  refine ⟨hnode, by decide +kernel, ?_⟩
  refine (hears_fresh_neighbors_only hnode).left oneTold oneToldAmongOthers ?_
  intro other hother hne
  have hnow : lineOfThree.now = 20000 := by rfl
  have hwaiting : ∀ name ∈ ["d0", "d2"],
      oneToldAmongOthers.waiting.filter (·.sender = ⟨name⟩) = [] := by
    simp [oneToldAmongOthers, telling]
  rw [freshExport?_withInbox he, freshExport?_withInbox he, hnow]
  rw [hannounced, List.mem_cons, List.mem_singleton] at hother
  rcases hother with rfl | rfl
  · have hearlier : oneToldAmongOthers.entries.find? ⟨"d0"⟩ = some ⟨telling "d0" 3 5, 18000⟩ := rfl
    have hlately : oneTold.entries.find? ⟨"d0"⟩ = some ⟨telling "d0" 7 5, 20000⟩ := rfl
    rw [hearlier, hlately, hwaiting "d0" (by simp)]
    rfl
  · have hstale : oneToldAmongOthers.entries.find? ⟨"d2"⟩ = some ⟨telling "d2" 1 7, 17999⟩ := rfl
    have hnone : oneTold.entries.find? ⟨"d2"⟩ = none := rfl
    rw [hstale, hnone, hwaiting "d2" (by simp)]
    rfl

end Network

end FieldCalculus
