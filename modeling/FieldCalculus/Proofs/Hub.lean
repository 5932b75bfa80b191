import FieldCalculus.Network.Hub
import FieldCalculus.Proofs.Dict

/-!
A direct hub while no time passes. Whatever it takes is in the tables of the recipients at
once, nothing waits and nothing goes stale, so that tables change by deliveries only.
-/

namespace FieldCalculus

namespace NeighborTable

variable {t : NeighborTable} {now : Nat}

/-- Everything in the table arrived just now. -/
def Current (t : NeighborTable) (now : Nat) : Prop :=
  ∀ sender arrival, t.entries.find? sender = some arrival → arrival.receivedAt = now

theorem find?_store (t : NeighborTable) (message : Message) (now : Nat) (sender : DeviceId) :
    (t.store message now).entries.find? sender =
      if sender = message.sender then some ⟨message, now⟩ else t.entries.find? sender :=
  Dict.find?_insert _ _ _ _

theorem store_store (t : NeighborTable) (message : Message) (now : Nat) :
    (t.store message now).store message now = t.store message now := by
  have hentries : ((t.store message now).store message now).entries =
      (t.store message now).entries := by
    apply Dict.ext_find?
    intro sender
    rw [find?_store, find?_store]
    split <;> rfl
  exact congrArg (fun entries => NeighborTable.mk entries t.staleness) hentries

/-- A snapshot holds the latest export of each device that was asked for. -/
theorem find?_snapshot (t : NeighborTable) (ids : List DeviceId) (now : Nat) (id : DeviceId) :
    (t.snapshot ids now).find? id =
      if id ∈ ids then (t.latest? id now).map Message.exported else none := by
  have hanswer : t.snapshot ids now = Dict.ofList (ids.filterMap fun id =>
      ((t.latest? id now).map Message.exported).map fun exported => (id, exported)) := by
    simp [NeighborTable.snapshot, Function.comp_def]
  rw [hanswer, Dict.find?_ofList_filterMap]

namespace Current

theorem empty (staleness : Nat) : (NeighborTable.empty staleness).Current now := by
  intro sender arrival h
  cases h

theorem store (h : t.Current now) (message : Message) : (t.store message now).Current now := by
  intro sender arrival harrival
  rw [find?_store] at harrival
  split at harrival
  · cases harrival
    rfl
  · exact h sender arrival harrival

theorem isFresh (h : t.Current now) {sender : DeviceId} {arrival : Arrival}
    (harrival : t.entries.find? sender = some arrival) : t.isFresh arrival now = true := by
  rw [NeighborTable.isFresh, h sender arrival harrival, Nat.sub_self]
  exact decide_eq_true (Nat.zero_le _)

theorem evictStale (h : t.Current now) : t.evictStale now = t := by
  have hentries : (t.evictStale now).entries = t.entries := by
    apply Dict.ext_find?
    intro sender
    refine (Dict.find?_filter _ _ _).trans ?_
    cases hfound : t.entries.find? sender with
    | none => rfl
    | some arrival => rw [Option.filter_some, h.isFresh hfound, if_pos rfl]
  exact congrArg (fun entries => NeighborTable.mk entries t.staleness) hentries

theorem latest? (h : t.Current now) (sender : DeviceId) :
    t.latest? sender now = (t.entries.find? sender).map Arrival.message := by
  unfold NeighborTable.latest? fresh?
  cases hfound : t.entries.find? sender with
  | none => rfl
  | some arrival => rw [Option.filter_some, h.isFresh hfound, if_pos rfl]

/-- A snapshot holds the export of each device that was asked for and is in the table. -/
theorem find?_snapshot (h : t.Current now) (ids : List DeviceId) (id : DeviceId) :
    (t.snapshot ids now).find? id =
      if id ∈ ids then (t.entries.find? id).map fun arrival => arrival.message.exported
      else none := by
  rw [NeighborTable.find?_snapshot, h.latest?, Option.map_map]
  rfl

end Current

end NeighborTable

/-- Nothing waits for the endpoint, and all it has arrived just now. -/
structure Endpoint.Settled (e : Endpoint) (now : Nat) : Prop where
  queue : e.queue = []
  table : e.table.Current now

namespace Hub

variable {hub : Hub} {now : Nat}

theorem find?_update (hub : Hub) (endpoint number : Nat) (change : Endpoint → Endpoint) :
    (hub.update endpoint change).endpoints.find? number =
      if number = endpoint then (hub.endpoints.find? endpoint).map change
      else hub.endpoints.find? number :=
  Dict.find?_modify _ _ _ _

theorem update_eq_self {endpoint : Nat} {change : Endpoint → Endpoint}
    (h : ∀ e, hub.endpoints.find? endpoint = some e → change e = e) :
    hub.update endpoint change = hub := by
  have hendpoints : (hub.update endpoint change).endpoints = hub.endpoints := by
    apply Dict.ext_find?
    intro number
    rw [find?_update]
    split
    · rename_i heq
      subst heq
      cases hfound : hub.endpoints.find? number with
      | none => rfl
      | some e => rw [Option.map_some, h e hfound]
    · rfl
  exact congrArg (fun endpoints => { hub with endpoints := endpoints }) hendpoints

/-- No endpoint has anything waiting or stale. -/
def Settled (hub : Hub) (now : Nat) : Prop :=
  ∀ number e, hub.endpoints.find? number = some e → e.Settled now

theorem Settled.collect (h : hub.Settled now) (endpoint : Nat) :
    hub.collect endpoint now = hub := by
  apply update_eq_self
  intro e he
  have hqueue := (h endpoint e he).queue
  cases e
  cases hqueue
  rfl

theorem Settled.evict (h : hub.Settled now) (endpoint : Nat) : hub.evict endpoint now = hub := by
  apply update_eq_self
  intro e he
  rw [(h endpoint e he).table.evictStale]

/-- The hub with a message in the tables of its recipients. -/
def receive (hub : Hub) (message : Message) (now : Nat) (recipients : List DeviceId) : Hub :=
  { hub with endpoints := hub.endpoints.mapWithKey fun number e =>
      if ∃ id ∈ recipients, hub.registry.find? id = some number then
        { e with table := e.table.store message now }
      else e }

theorem find?_receive (message : Message) (recipients : List DeviceId) (number : Nat) :
    (hub.receive message now recipients).endpoints.find? number =
      (hub.endpoints.find? number).map fun e =>
        if ∃ id ∈ recipients, hub.registry.find? id = some number then
          { e with table := e.table.store message now }
        else e :=
  Dict.find?_mapWithKey _ _ _

theorem ext_endpoints {other : Hub} (hregistry : other.registry = hub.registry)
    (hdelivery : other.delivery = hub.delivery) (hstaleness : other.staleness = hub.staleness)
    (hnext : other.next = hub.next) (hendpoints : ∀ number, other.endpoints.find? number =
      hub.endpoints.find? number) : other = hub := by
  have hsame := Dict.ext_find? hendpoints
  cases other
  cases hub
  simp_all

theorem deliver_none {id : DeviceId} (hid : hub.registry.find? id = none) (message : Message)
    (now : Nat) : hub.deliver message now id = .ok (hub, 0) := by
  rw [deliver, hid]

theorem deliver_direct {id : DeviceId} {endpoint : Nat} (hdirect : hub.delivery = .direct)
    (hid : hub.registry.find? id = some endpoint) (message : Message) (now : Nat) :
    hub.deliver message now id =
      .ok (hub.update endpoint fun e => { e with table := e.table.store message now }, 1) := by
  rw [deliver, hid, hdirect]

/-- A recipient whose id is addressed receives; the others receive as they would after it. -/
theorem receive_cons {message : Message} {id : DeviceId} {rest : List DeviceId} {endpoint : Nat}
    (hid : hub.registry.find? id = some endpoint) :
    (hub.update endpoint fun e => { e with table := e.table.store message now }).receive message
      now rest = hub.receive message now (id :: rest) := by
  refine ext_endpoints rfl rfl rfl rfl ?_
  intro number
  rw [find?_receive, find?_receive, find?_update]
  change Option.map
    (fun e => if ∃ id ∈ rest, hub.registry.find? id = some number then _ else e) _ = _
  by_cases hnumber : number = endpoint
  · subst hnumber
    rw [if_pos rfl, Option.map_map]
    congr 1
    funext e
    have hfirst : ∃ other ∈ id :: rest, hub.registry.find? other = some number :=
      ⟨id, List.mem_cons_self, hid⟩
    rw [if_pos hfirst, Function.comp_apply]
    split
    · rw [NeighborTable.store_store]
    · rfl
  · rw [if_neg hnumber]
    congr 1
    funext e
    have hsame : (∃ other ∈ id :: rest, hub.registry.find? other = some number) ↔
        ∃ other ∈ rest, hub.registry.find? other = some number := by
      have hother : hub.registry.find? id ≠ some number := by
        rw [hid]
        simpa using Ne.symm hnumber
      simp [hother]
    simp only [hsame]

/-- A recipient that nobody answers for is passed over. -/
theorem receive_cons_none {message : Message} {id : DeviceId} {rest : List DeviceId}
    (hid : hub.registry.find? id = none) :
    hub.receive message now rest = hub.receive message now (id :: rest) := by
  refine ext_endpoints rfl rfl rfl rfl ?_
  intro number
  rw [find?_receive, find?_receive]
  congr 1
  funext e
  simp [hid]

/-- Publishing over a direct hub never fails, and everyone addressed receives. -/
theorem publish_direct (hdirect : hub.delivery = .direct) (message : Message) (now : Nat)
    (recipients : List DeviceId) :
    (hub.publish message now recipients).hub = hub.receive message now recipients ∧
      (hub.publish message now recipients).fault = none := by
  induction recipients generalizing hub with
  | nil =>
      have hnobody : hub.receive message now [] = hub := by
        refine ext_endpoints rfl rfl rfl rfl ?_
        intro number
        rw [find?_receive]
        simp
      exact ⟨hnobody.symm, rfl⟩
  | cons id rest ih =>
      cases hid : hub.registry.find? id with
      | none =>
          rw [publish, deliver_none hid, ← receive_cons_none hid]
          exact ih hdirect
      | some endpoint =>
          rw [publish, deliver_direct hdirect hid, ← receive_cons hid]
          exact ih hdirect

/-- How many messages a direct hub stores depends on who is addressed only. -/
theorem stored_publish (hdirect : hub.delivery = .direct) (message : Message)
    (now : Nat) (recipients : List DeviceId) :
    (hub.publish message now recipients).stored =
      recipients.countP fun id => (hub.registry.find? id).isSome := by
  induction recipients generalizing hub with
  | nil => rfl
  | cons id rest ih =>
      cases hid : hub.registry.find? id with
      | none =>
          rw [publish, deliver_none hid, List.countP_cons_of_neg (by simp [hid])]
          dsimp only
          rw [ih hdirect, Nat.zero_add]
      | some endpoint =>
          rw [publish, deliver_direct hdirect hid, List.countP_cons_of_pos (by simp [hid])]
          dsimp only
          rw [ih (by exact hdirect), Nat.add_comm]
          rfl

theorem Settled.receive (h : hub.Settled now) (message : Message) (recipients : List DeviceId) :
    (hub.receive message now recipients).Settled now := by
  intro number e he
  rw [find?_receive, Option.map_eq_some_iff] at he
  obtain ⟨before, hbefore, rfl⟩ := he
  split
  · exact ⟨(h number before hbefore).queue, (h number before hbefore).table.store message⟩
  · exact h number before hbefore

end Hub

end FieldCalculus
