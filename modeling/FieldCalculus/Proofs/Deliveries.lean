import FieldCalculus.Proofs.Runs

/-!
What rounds do to the tables behind a direct hub: a message is in the table of each
addressed neighbor as soon as it is handed over, and whatever is fresh in a table stays
there through the rounds of others.
-/

namespace FieldCalculus

namespace Hub

variable {hub : Hub} {number : Nat} {sender : DeviceId} {arrival : Arrival}

/-- What an endpoint holds from a sender. -/
def held (hub : Hub) (number : Nat) (sender : DeviceId) : Option Arrival :=
  (hub.endpoints.find? number).bind fun e => e.table.entries.find? sender

theorem held_eq_some : hub.held number sender = some arrival ↔
    ∃ e, hub.endpoints.find? number = some e ∧ e.table.entries.find? sender = some arrival :=
  Option.bind_eq_some_iff

/-- A message reaches every endpoint that a recipient is addressed at. -/
theorem held_receive_recipient {message : Message} {now : Nat} {recipients : List DeviceId}
    {recipient : DeviceId} (hmem : recipient ∈ recipients)
    (haddress : hub.registry.find? recipient = some number)
    (hpresent : (hub.endpoints.find? number).isSome) :
    (hub.receive message now recipients).held number message.sender = some ⟨message, now⟩ := by
  obtain ⟨e, he⟩ := Option.isSome_iff_exists.mp hpresent
  rw [held_eq_some]
  refine ⟨{ e with table := e.table.store message now }, ?_, ?_⟩
  · rw [find?_receive, he, Option.map_some, if_pos ⟨recipient, hmem, haddress⟩]
  · rw [NeighborTable.find?_store, if_pos rfl]

theorem held_receive_other {message : Message} (hsender : sender ≠ message.sender) (now : Nat)
    (recipients : List DeviceId) :
    (hub.receive message now recipients).held number sender = hub.held number sender := by
  unfold held
  rw [find?_receive]
  cases hub.endpoints.find? number with
  | none => rfl
  | some e =>
      rw [Option.map_some, Option.bind_some, Option.bind_some]
      split
      · rw [NeighborTable.find?_store, if_neg hsender]
      · rfl

/-- An endpoint at which no recipient is addressed holds what it held. -/
theorem held_receive_beside {message : Message} {recipients : List DeviceId}
    (hbeside : ¬∃ id ∈ recipients, hub.registry.find? id = some number) (now : Nat)
    (sender : DeviceId) :
    (hub.receive message now recipients).held number sender = hub.held number sender := by
  unfold held
  rw [find?_receive]
  simp only [if_neg hbeside, Option.map_id']

theorem held_drop (hub : Hub) (endpoint number : Nat) (sender : DeviceId) :
    (hub.drop endpoint).held number sender = hub.held number sender := by
  unfold held
  rw [find?_drop]
  cases hub.endpoints.find? number with
  | none => rfl
  | some e =>
      rw [Option.map_some]
      split
      · rfl
      · rfl

theorem held_join (h : number ≠ hub.next) (id sender : DeviceId) :
    (hub.join id).held number sender = hub.held number sender := by
  rw [held, find?_join, if_neg h, held]

end Hub

namespace Network

variable {net next : Network} {id sender : DeviceId} {node : Node} {outcome : RoundOutcome}
  {number : Nat} {arrival : Arrival}

/-- Whether an arrival still counts when a device does a round. -/
def counts (net : Network) (arrival : Arrival) : Bool :=
  net.now - arrival.receivedAt ≤ net.hub.staleness

theorem counts_of_le (h : net.now ≤ arrival.receivedAt + net.hub.staleness) :
    net.counts arrival = true := by
  rw [counts, decide_eq_true_eq]
  omega

/-- What is fresh at an endpoint is what still counts. -/
theorem isFresh_eq_counts (hwindow : net.hub.Each fun _ e => e.table.staleness = net.hub.staleness)
    {e : Endpoint} (he : net.hub.endpoints.find? number = some e) :
    (fun arrival => e.table.isFresh arrival net.now) = net.counts := by
  funext arrival
  rw [NeighborTable.isFresh, hwindow _ e he]
  rfl

/-- The latest message of a sender is the one that the endpoint holds, unless that is stale. -/
theorem latest?_inbox (hwindow : net.hub.Each fun _ e => e.table.staleness = net.hub.staleness)
    (node : Node) (sender : DeviceId) :
    (net.inbox node).latest? sender net.now =
      ((net.hub.held node.endpoint sender).filter net.counts).map Arrival.message := by
  rw [inbox, Hub.table, Hub.held]
  cases he : net.hub.endpoints.find? node.endpoint with
  | none => rfl
  | some e =>
      rw [Option.bind_some, NeighborTable.latest?, NeighborTable.fresh?,
        isFresh_eq_counts hwindow he]

/-- A device has a fresh message from every sender of which its endpoint holds one. -/
theorem latest?_of_held (h : net.Orderly) (hheld : net.hub.held node.endpoint sender = some arrival)
    (hfresh : net.now ≤ arrival.receivedAt + net.hub.staleness) :
    (net.inbox node).latest? sender net.now = some arrival.message := by
  rw [latest?_inbox h.window, hheld, Option.filter_some, if_pos (counts_of_le hfresh),
    Option.map_some]

/-- Over a direct hub nothing waits to be collected, and a device that begins a round drops what
is stale at its own endpoint. -/
theorem Orderly.held_sweep (h : net.Orderly) (hdirect : net.hub.delivery = .direct)
    (endpoint number : Nat) (sender : DeviceId) :
    (net.swept endpoint).hub.held number sender =
      if number = endpoint then (net.hub.held number sender).filter net.counts
      else net.hub.held number sender := by
  have hcollected : net.hub.collect endpoint net.now = net.hub := by
    apply Hub.update_eq_self
    intro other hother
    have hqueue := h.unqueued hdirect endpoint other hother
    cases other
    cases hqueue
    rfl
  have hswept : (net.swept endpoint).hub = net.hub.evict endpoint net.now := by
    change (net.hub.collect endpoint net.now).evict endpoint net.now = _
    rw [hcollected]
  rw [hswept, Hub.held, Hub.evict, Hub.find?_update]
  split
  · rename_i heq
    rw [heq, Hub.held]
    cases he : net.hub.endpoints.find? endpoint with
    | none => rfl
    | some e =>
        rw [Option.map_some, Option.bind_some, Option.bind_some, NeighborTable.find?_evictStale,
          NeighborTable.fresh?, isFresh_eq_counts h.window he]
  · rfl

/-- Collecting and evicting leave alone what is fresh. -/
theorem Orderly.held_swept (h : net.Orderly) (hdirect : net.hub.delivery = .direct)
    (hheld : net.hub.held number sender = some arrival)
    (hfresh : net.now ≤ arrival.receivedAt + net.hub.staleness) (endpoint : Nat) :
    (net.swept endpoint).hub.held number sender = some arrival := by
  rw [h.held_sweep hdirect, hheld, Option.filter_some, if_pos (counts_of_le hfresh), ite_self]

/-- Over a direct hub nothing that is fresh changes when a round begins. -/
theorem Orderly.latest?_swept (h : net.Orderly) (hdirect : net.hub.delivery = .direct) (node : Node)
    (sender : DeviceId) :
    ((net.swept node.endpoint).inbox node).latest? sender net.now =
      (net.inbox node).latest? sender net.now := by
  have hstaleness := (net.swept_alike node.endpoint).staleness
  have hwindow : (net.swept node.endpoint).hub.Each fun _ e =>
      e.table.staleness = (net.swept node.endpoint).hub.staleness := by
    rw [hstaleness]
    exact (h.swept node.endpoint).1
  have hcounts : (net.swept node.endpoint).counts = net.counts := by
    funext arrival
    rw [counts, counts, hstaleness]
    rfl
  have hswept := latest?_inbox hwindow node sender
  rw [h.held_sweep hdirect, if_pos rfl, hcounts, Option.filter_filter] at hswept
  simp only [Bool.and_self] at hswept
  exact hswept.trans (latest?_inbox h.window node sender).symm

namespace RoundResult

/-- Over a direct hub, what is offered is accepted and received by everyone addressed. -/
theorem direct_publication (hdirect : net.hub.delivery = .direct) (endpoint : Nat)
    (message : Message) (recipients : List DeviceId) :
    ((net.swept endpoint).hub.publish message net.now recipients).hub =
        (net.swept endpoint).hub.receive message net.now recipients ∧
      ((net.swept endpoint).hub.publish message net.now recipients).fault = none :=
  Hub.publish_direct ((net.swept_alike endpoint).delivery.trans hdirect) _ _ _

theorem registry (hdirect : net.hub.delivery = .direct)
    (hresult : net.RoundResult id node next outcome) : next.hub.registry = net.hub.registry := by
  cases hresult with
  | failed _ _ _ _ hturned =>
      rw [hturned.hub]
      rfl
  | quiet _ _ _ _ _ _ hturned =>
      rw [hturned.hub]
      rfl
  | offered _ _ _ _ hpublication _ _ hturned =>
      rw [hturned.hub, hpublication, (direct_publication hdirect _ _ _).1]
      rfl

/-- What is fresh stays through a round, unless its own sender offers something new. -/
theorem held_of_held (h : net.Orderly) (hdirect : net.hub.delivery = .direct)
    (hid : node.device.id = id) (hresult : net.RoundResult id node next outcome)
    (hunsent : sender = id → net.offered node = none)
    (hheld : net.hub.held number sender = some arrival)
    (hfresh : net.now ≤ arrival.receivedAt + net.hub.staleness) :
    next.hub.held number sender = some arrival := by
  have hswept := h.held_swept hdirect hheld hfresh node.endpoint
  cases hresult with
  | failed _ _ _ _ hturned =>
      rw [hturned.hub]
      exact hswept
  | quiet _ _ _ _ _ _ hturned =>
      rw [hturned.hub]
      exact hswept
  | offered _ hoffer hsender _ hpublication _ _ hturned =>
      rw [hturned.hub, hpublication, (direct_publication hdirect _ _ _).1, Hub.held_receive_other]
      · exact hswept
      · intro heq
        rw [hunsent (heq.trans (hsender.trans hid))] at hoffer
        cases hoffer

/-- What is offered stands at once in the table of each neighbor that is addressed. -/
theorem held_of_offered (hdirect : net.hub.delivery = .direct)
    (hid : node.device.id = id) (hresult : net.RoundResult id node next outcome)
    {message : Message} (hoffered : net.offered node = some message) {recipient : DeviceId}
    (hmem : recipient ∈ (net.neighborsOf node).toList)
    (haddress : net.hub.registry.find? recipient = some number)
    (hpresent : (net.hub.endpoints.find? number).isSome) :
    next.hub.held number id = some ⟨message, net.now⟩ := by
  cases hresult with
  | failed _ hsilent =>
      rw [hsilent] at hoffered
      cases hoffered
  | quiet _ hsilent =>
      rw [hsilent] at hoffered
      cases hoffered
  | offered _ hoffer hsender _ hpublication _ _ hturned =>
      rw [hoffered] at hoffer
      cases hoffer
      rw [hturned.hub, hpublication, (direct_publication hdirect _ _ _).1, ← hid, ← hsender]
      apply Hub.held_receive_recipient hmem
      · exact haddress
      · rw [(net.swept_alike node.endpoint).present]
        exact hpresent

end RoundResult

/-! ## Devices that come and go -/

theorem held_perform_join (hnumber : number ≠ net.hub.next) (id : DeviceId) (program : Expr)
    (pacing : Pacing) (sender : DeviceId) :
    (net.perform (.join id program pacing)).hub.held number sender =
      net.hub.held number sender := by
  rcases net.hub_perform_join id program pacing with hhub | ⟨endpoint, hhub⟩
  · rw [hhub, Hub.held_join hnumber]
  · rw [hhub, Hub.held_drop, Hub.held_join hnumber]

/-- Over a direct hub, a device that joins changes nobody's address but its own. -/
theorem registry_perform_join (hdirect : net.hub.delivery = .direct) (id : DeviceId)
    (program : Expr) (pacing : Pacing) (other : DeviceId) :
    (net.perform (.join id program pacing)).hub.registry.find? other =
      if other = id then some net.hub.next else net.hub.registry.find? other := by
  have hregistry : (net.hub.join id).registry.find? other =
      if other = id then some net.hub.next else net.hub.registry.find? other :=
    Dict.find?_insert _ _ _ _
  have hjoined : (net.hub.join id).delivery = .direct := hdirect
  rcases net.hub_perform_join id program pacing with hhub | ⟨endpoint, hhub⟩
  · rw [hhub, hregistry]
  · rw [hhub, (Hub.drop_direct hjoined endpoint).2.1, hregistry]

/-! ## What acts leave alone -/

namespace Orderly

variable {act : Act}

theorem now_perform (h : net.Orderly) (act : Act) : net.now ≤ (net.perform act).now := by
  cases h.act act with
  | unknown hsame _ => exact Nat.le_of_eq (congrArg Network.now hsame.symm)
  | round _ _ hresult =>
      obtain ⟨_, _, hturned⟩ := hresult.turned
      exact Nat.le_of_eq hturned.now.symm
  | joined hwhich =>
      rw [hwhich]
      exact Nat.le_refl _
  | @dropped id hwhich =>
      rw [hwhich]
      rcases net.perform_drop id with heq | ⟨_, -, -, hnow⟩
      · exact Nat.le_of_eq (congrArg Network.now heq.symm)
      · exact Nat.le_of_eq hnow.symm
  | rearranged _ hrearranged => exact hrearranged.now

/-- Whatever happens, devices learn of their neighbors as they did, and being linked stays
symmetric. -/
theorem surroundings_perform (h : net.Orderly) (act : Act) :
    (net.perform act).neighborhood = net.neighborhood ∧
      (net.topology.Built → (net.perform act).topology.Built) := by
  cases act with
  | step id =>
      rw [Network.perform, Network.step]
      cases hnode : net.nodes.find? id with
      | none => exact ⟨rfl, fun hbuilt => hbuilt⟩
      | some node =>
          obtain ⟨_, _, hturned⟩ := (net.stepNode_result id (h.linkUp id node hnode)).turned
          exact ⟨hturned.neighborhood, fun hbuilt => hturned.topology ▸ hbuilt⟩
  | drop id =>
      rw [Network.perform, Network.drop]
      cases net.nodes.find? id <;> exact ⟨rfl, fun hbuilt => hbuilt⟩
  | addToTopology id => exact ⟨rfl, fun hbuilt => hbuilt.addDevice id⟩
  | link x y => exact ⟨rfl, fun hbuilt => hbuilt.link x y⟩
  | unlink x y => exact ⟨rfl, fun hbuilt => hbuilt.unlink x y⟩
  | _ => exact ⟨rfl, fun hbuilt => hbuilt⟩

theorem built_run (h : net.Orderly) (hbuilt : net.topology.Built) (acts : List Act) :
    (net.run acts).topology.Built := by
  induction acts using List.reverseRecOn with
  | nil => exact hbuilt
  | append_singleton acts act ih =>
      rw [run_concat]
      exact ((h.run acts).surroundings_perform act).2 ih

/-- A device that does no round is as it was, unless it is a new one. -/
theorem device_perform (h : net.Orderly) (hother : ∀ r, net.roundOf? act = some r → r.id ≠ id)
    (hnode : (net.perform act).nodes.find? id = some node) :
    (∃ program pacing, act = .join id program pacing ∧ node.device = .start id program pacing) ∨
      ∃ before, net.nodes.find? id = some before ∧ before.device = node.device := by
  cases h.act act with
  | unknown hsame _ =>
      rw [hsame] at hnode
      exact Or.inr ⟨node, hnode, rfl⟩
  | round _ hrecord hresult =>
      obtain ⟨_, _, hturned⟩ := hresult.turned
      rw [hturned.nodes, if_neg (Ne.symm (hother _ hrecord))] at hnode
      exact Or.inr ⟨node, hnode, rfl⟩
  | joined hwhich =>
      rw [hwhich, find?_perform_join] at hnode
      split at hnode
      · rename_i heq
        cases hnode
        rw [heq]
        exact Or.inl ⟨_, _, hwhich, rfl⟩
      · exact Or.inr ⟨node, hnode, rfl⟩
  | @dropped other hwhich =>
      rw [hwhich] at hnode
      rcases net.perform_drop other with heq | ⟨_, -, hnodes, -⟩
      · rw [heq] at hnode
        exact Or.inr ⟨node, hnode, rfl⟩
      · rw [hnodes, Dict.find?_erase] at hnode
        split at hnode
        · cases hnode
        · exact Or.inr ⟨node, hnode, rfl⟩
  | rearranged _ hrearranged =>
      have hdevices := hrearranged.devices id
      rw [hnode, Option.map_some, eq_comm, Option.map_eq_some_iff] at hdevices
      obtain ⟨before, hbefore, heq⟩ := hdevices
      simp only [Prod.mk.injEq] at heq
      exact Or.inr ⟨before, hbefore, heq.1⟩

/-- What is fresh stays whatever happens, unless its own sender does a round. -/
theorem held_perform (h : net.Orderly) (hdirect : net.hub.delivery = .direct)
    (hother : ∀ r, net.roundOf? act = some r → r.id ≠ sender)
    (hheld : net.hub.held number sender = some arrival)
    (hfresh : net.now ≤ arrival.receivedAt + net.hub.staleness) :
    (net.perform act).hub.held number sender = some arrival := by
  cases h.act act with
  | unknown hsame _ => rw [hsame, hheld]
  | round hnode hrecord hresult =>
      refine hresult.held_of_held h hdirect (h.device _ _ hnode) ?_ hheld hfresh
      exact fun heq => absurd heq.symm (hother _ hrecord)
  | joined hwhich =>
      obtain ⟨e, he, -⟩ := Hub.held_eq_some.mp hheld
      have hbelow : number < net.hub.next := h.numbered number (by rw [he]; rfl)
      rw [hwhich, held_perform_join (Nat.ne_of_lt hbelow), hheld]
  | @dropped id hwhich =>
      rw [hwhich]
      rcases net.perform_drop id with heq | ⟨endpoint, hhub, -, -⟩
      · rw [heq, hheld]
      · rw [hhub, Hub.held_drop, hheld]
  | rearranged _ hrearranged => rw [Hub.held, hrearranged.endpoints, ← Hub.held, hheld]

/-- Over a direct hub, a device that neither joins nor leaves is addressed as before. -/
theorem registry_perform (h : net.Orderly) (hdirect : net.hub.delivery = .direct)
    (hstays : act.moves id = false) :
    (net.perform act).hub.registry.find? id = net.hub.registry.find? id := by
  cases act with
  | step other =>
      rw [Network.perform, Network.step]
      cases hnode : net.nodes.find? other with
      | none => rfl
      | some node =>
          have hresult := net.stepNode_result other (h.linkUp other node hnode)
          exact congrArg (Dict.find? · id) (hresult.registry hdirect)
  | join other program pacing =>
      rw [registry_perform_join hdirect, if_neg (Ne.symm (of_decide_eq_false hstays))]
  | drop other =>
      rcases net.perform_drop other with heq | ⟨endpoint, hhub, -, -⟩
      · rw [heq]
      · rw [hhub, (Hub.drop_direct hdirect endpoint).2.1]
  | leave other =>
      exact (Dict.find?_erase _ _ _).trans (if_neg (Ne.symm (of_decide_eq_false hstays)))
  | _ => rfl

/-- A device that neither joins nor leaves stays where it is. -/
theorem plug_perform (h : net.Orderly) (hstays : act.moves id = false) :
    ((net.perform act).nodes.find? id).map Node.plug = (net.nodes.find? id).map Node.plug := by
  cases h.act act with
  | unknown hsame _ => rw [hsame]
  | round hfound _ hresult =>
      obtain ⟨_, _, hturned⟩ := hresult.turned
      exact hturned.plug hfound id
  | joined hwhich =>
      rw [hwhich] at hstays ⊢
      rw [find?_perform_join, if_neg (Ne.symm (of_decide_eq_false hstays))]
  | @dropped other hwhich =>
      rw [hwhich] at hstays ⊢
      rcases net.perform_drop other with heq | ⟨endpoint, -, hnodes, -⟩
      · rw [heq]
      · rw [hnodes, Dict.find?_erase, if_neg (Ne.symm (of_decide_eq_false hstays))]
  | rearranged _ hrearranged => exact hrearranged.plug id

theorem endpoint_perform (h : net.Orderly) (hstays : act.moves id = false)
    (hnode : net.nodes.find? id = some node) :
    ∃ after, (net.perform act).nodes.find? id = some after ∧ after.endpoint = node.endpoint := by
  have hplug := h.plug_perform hstays
  rw [hnode, Option.map_some, Option.map_eq_some_iff] at hplug
  obtain ⟨after, hafter, heq⟩ := hplug
  exact ⟨after, hafter, congrArg (fun p => p.2.1) heq⟩

end Orderly

end Network

end FieldCalculus
