import FieldCalculus.Proofs.Receipts

/-!
Rounds in either order. What a device offers reaches the endpoints of those linked to it, and
nothing else that a round does is seen by another device. So of two devices that are not linked,
neither changes what the other's round depends on, and what they change together changes alike
in both orders.
-/

namespace FieldCalculus

/-! ## What is recorded -/

/-- The device whose round it was. -/
def RoundOutcome.device : RoundOutcome → DeviceId
  | .ok report => report.device
  | .error failure => failure.device

/-- What is known of a device after a round of it. -/
def DeviceView.note (outcome : RoundOutcome) (v : DeviceView) : DeviceView :=
  match outcome with
  | .ok report => { v with round := report.round, value := some report.value }
  | .error failure =>
    { v with
      round := failure.round
      failures := v.failures + 1
      lastError := some failure.message }

namespace Recorder

theorem record_eq (r : Recorder) (outcome : RoundOutcome) :
    r.record outcome = ⟨r.views.upsert outcome.device ⟨0, none, 0, none⟩ (.note outcome)⟩ := by
  cases outcome <;> rfl

theorem record_comm (r : Recorder) {first second : RoundOutcome}
    (hne : first.device ≠ second.device) :
    (r.record first).record second = (r.record second).record first := by
  simp only [record_eq]
  rw [Dict.upsert_comm _ _ fun heq => absurd heq hne]

end Recorder

theorem Counters.count_comm (c : Counters) (received evicted received' evicted' : Nat)
    (offered offered' : Bool) (first second : RoundOutcome) :
    (c.count received evicted offered first).count received' evicted' offered' second =
      (c.count received' evicted' offered' second).count received evicted offered first := by
  cases first with
  | ok report =>
      cases second with
      | ok other => simp [count, addTraffic, addRound, Nat.add_right_comm]
      | error failure => simp [count, addTraffic, addRound, addFailure, Nat.add_right_comm]
  | error failure =>
      cases second with
      | ok report => simp [count, addTraffic, addRound, addFailure, Nat.add_right_comm]
      | error other =>
          have hfailures : ∀ label label' : String,
              (c.failures.upsert label 0 (· + 1)).upsert label' 0 (· + 1) =
                (c.failures.upsert label' 0 (· + 1)).upsert label 0 (· + 1) :=
            fun _ _ => Dict.upsert_comm _ _ fun _ _ => rfl
          simp [count, addTraffic, addFailure, Nat.add_right_comm,
            hfailures failure.error.fault.label]

theorem NeighborTable.store_comm (t : NeighborTable) {m other : Message}
    (hne : m.sender ≠ other.sender) (now : Nat) :
    (t.store m now).store other now = (t.store other now).store m now :=
  congrArg (NeighborTable.mk · t.staleness) (Dict.insert_comm _ hne _ _)

theorem Device.device_round (d : Device) (s : Setting) : (d.round s).2.device = d.id := by
  cases houtcome : evaluate d.program (d.inputs s) with
  | error error =>
      rw [round_of_error houtcome]
      rfl
  | ok result =>
      rw [round_of_ok houtcome]
      rfl

namespace Network

variable {net next : Network} {id a b : DeviceId} {node x y : Node}

/-! ## What a round depends on -/

/-- Nothing that a round of the device depends on has changed. -/
structure Undisturbed (net : Network) (node : Node) (next : Network) : Prop where
  now : next.now = net.now
  topology : next.topology = net.topology
  neighborhood : next.neighborhood = net.neighborhood
  staleness : next.hub.staleness = net.hub.staleness
  registry : next.hub.registry = net.hub.registry
  endpoint : next.hub.endpoints.find? node.endpoint = net.hub.endpoints.find? node.endpoint

theorem table_collect (net : Network) (endpoint : Nat) :
    (net.collect endpoint).hub.table endpoint = ((net.hub.endpoints.find? endpoint).map
      fun e => e.table.storeAll e.queue net.now).getD (.empty net.hub.staleness) := by
  change (net.hub.update endpoint _).table endpoint = _
  unfold Hub.table
  rw [Hub.find?_update, if_pos rfl]
  cases net.hub.endpoints.find? endpoint <;> rfl

theorem table_swept (net : Network) (endpoint : Nat) :
    (net.swept endpoint).hub.table endpoint =
      ((net.collect endpoint).hub.table endpoint).evictStale net.now := by
  change ((net.collect endpoint).hub.update endpoint _).table endpoint = _
  unfold Hub.table
  rw [Hub.find?_update, if_pos rfl]
  cases (net.collect endpoint).hub.endpoints.find? endpoint <;> rfl

namespace Undisturbed

theorem neighborsOf (h : net.Undisturbed node next) :
    next.neighborsOf node = net.neighborsOf node := by
  unfold Network.neighborsOf announced
  rw [h.neighborhood, h.topology, h.now]

theorem table (h : net.Undisturbed node next) :
    (next.collect node.endpoint).hub.table node.endpoint =
      (net.collect node.endpoint).hub.table node.endpoint := by
  rw [table_collect, table_collect, h.endpoint, h.now, h.staleness]

theorem heard (h : net.Undisturbed node next) : next.heard node = net.heard node := by
  unfold Network.heard inbox
  rw [table_swept, table_swept, h.table, h.neighborsOf, h.now]

theorem settingOf (h : net.Undisturbed node next) (haccepts : next.accepts node = net.accepts node) :
    next.settingOf node = net.settingOf node := by
  unfold Network.settingOf
  rw [h.heard, h.now, haccepts]

theorem offered (h : net.Undisturbed node next) : next.offered node = net.offered node := by
  unfold Network.offered
  rw [h.heard, h.now]

theorem staleEntries (h : net.Undisturbed node next) :
    next.staleEntries node = net.staleEntries node := by
  unfold Network.staleEntries
  rw [h.table, h.now]

theorem intake (h : net.Undisturbed node next) (hdirect : net.hub.delivery = .direct)
    (hnext : next.hub.delivery = .direct) : next.intake node = net.intake node := by
  have hwaiting : next.hub.waiting node.endpoint = net.hub.waiting node.endpoint := by
    unfold Hub.waiting
    rw [h.endpoint]
  have hstored : ∀ message, ((next.swept node.endpoint).hub.publish message next.now
      (next.neighborsOf node).toList).stored = ((net.swept node.endpoint).hub.publish message
        net.now (net.neighborsOf node).toList).stored := by
    intro message
    rw [Hub.stored_publish ((next.swept_alike _).delivery.trans hnext),
      Hub.stored_publish ((net.swept_alike _).delivery.trans hdirect), h.neighborsOf]
    change List.countP (fun id => (next.hub.registry.find? id).isSome) _ = _
    rw [h.registry]
    rfl
  unfold Network.intake
  rw [hwaiting, h.offered]
  simp only [hstored]

end Undisturbed

/-! ## What a round does to the endpoints -/

/-- Whether what a device offers comes to an endpoint. -/
def Addresses (net : Network) (node : Node) (number : Nat) : Prop :=
  ∃ id ∈ (net.neighborsOf node).toList, net.hub.registry.find? id = some number

instance (net : Network) (node : Node) (number : Nat) : Decidable (net.Addresses node number) :=
  inferInstanceAs (Decidable (∃ _ ∈ _, _))

/-- An endpoint once its owner has looked through it. -/
def sweep (net : Network) (node : Node) (number : Nat) (e : Endpoint) : Endpoint :=
  if number = node.endpoint then
    { e with table := (e.table.storeAll e.queue net.now).evictStale net.now, queue := [] }
  else e

/-- What a round of a device makes of an endpoint. -/
def touch (net : Network) (node : Node) (number : Nat) (e : Endpoint) : Endpoint :=
  match net.offered node with
  | none => net.sweep node number e
  | some message =>
    if net.Addresses node number then
      { net.sweep node number e with
        table := (net.sweep node number e).table.store message net.now }
    else net.sweep node number e

theorem touch_beside {number : Nat} (hother : number ≠ node.endpoint)
    (hbeside : ¬net.Addresses node number) (e : Endpoint) : net.touch node number e = e := by
  unfold touch sweep
  cases net.offered node <;> simp [hother, hbeside]

theorem Undisturbed.touch (h : net.Undisturbed node next) (number : Nat) :
    next.touch node number = net.touch node number := by
  have haddresses : next.Addresses node number ↔ net.Addresses node number := by
    unfold Addresses
    rw [h.neighborsOf, h.registry]
  have hsweep : next.sweep node number = net.sweep node number := by
    funext e
    unfold sweep
    rw [h.now]
  funext e
  unfold Network.touch
  rw [h.offered, hsweep, h.now]
  simp only [haddresses]

/-- Two rounds change an endpoint alike in both orders, if neither device offers to the other. -/
theorem touch_comm (hoffered : ∀ m ∈ net.offered x, ∀ m' ∈ net.offered y, m.sender ≠ m'.sender)
    (hapart : x.endpoint ≠ y.endpoint) (hx : ¬net.Addresses y x.endpoint)
    (hy : ¬net.Addresses x y.endpoint) (number : Nat) (e : Endpoint) :
    net.touch y number (net.touch x number e) = net.touch x number (net.touch y number e) := by
  by_cases hown : number = x.endpoint
  · subst hown
    rw [touch_beside hapart hx, touch_beside hapart hx]
  · by_cases hother : number = y.endpoint
    · subst hother
      rw [touch_beside hown hy, touch_beside hown hy]
    · -- Both may store a message here, and the messages have different senders.
      have hsweep : ∀ e, net.sweep x number e = e ∧ net.sweep y number e = e :=
        fun e => ⟨if_neg hown, if_neg hother⟩
      unfold touch
      simp only [hsweep]
      cases hfirst : net.offered x with
      | none => rfl
      | some m =>
          cases hsecond : net.offered y with
          | none => rfl
          | some m' =>
              have hne := hoffered m hfirst m' hsecond
              dsimp only
              by_cases haddress : net.Addresses x number
              · by_cases haddress' : net.Addresses y number
                · simp [haddress, haddress', NeighborTable.store_comm _ hne]
                · simp [haddress, haddress']
              · simp [haddress]

namespace Live

theorem exchanged_kept (h : net.Live) (hnode : net.nodes.find? id = some node) :
    (net.exchanged node).registry = net.hub.registry ∧
      (net.exchanged node).delivery = net.hub.delivery ∧
      (net.exchanged node).staleness = net.hub.staleness ∧
      (net.exchanged node).next = net.hub.next := by
  rw [h.exchanged_eq hnode]
  cases net.offered node <;> exact ⟨rfl, rfl, rfl, rfl⟩

theorem find?_exchanged (h : net.Live) (hnode : net.nodes.find? id = some node) (number : Nat) :
    (net.exchanged node).endpoints.find? number =
      (net.hub.endpoints.find? number).map (net.touch node number) := by
  have hswept : (net.swept node.endpoint).hub.endpoints.find? number =
      (net.hub.endpoints.find? number).map (net.sweep node number) := by
    change ((net.hub.update _ _).update _ fun e =>
      { e with table := e.table.evictStale net.now }).endpoints.find? number = _
    unfold sweep
    rw [Hub.find?_update, Hub.find?_update, Hub.find?_update, if_pos rfl]
    by_cases hown : number = node.endpoint
    · simp [hown, Function.comp_def]
    · simp [hown]
  rw [h.exchanged_eq hnode]
  unfold touch
  cases net.offered node with
  | none => exact hswept
  | some message =>
      dsimp only
      rw [Hub.find?_receive, hswept, Option.map_map]
      rfl

/-- A device addresses the endpoints of those linked to it only. -/
theorem not_addresses (h : net.Live) (hx : net.nodes.find? a = some x)
    (hy : net.nodes.find? b = some y) (hunlinked : ¬net.topology.Linked a b) :
    ¬net.Addresses x y.endpoint :=
  fun haddresses => hunlinked ((h.addressed_iff hx hy).mp haddresses).1

/-- A round of a device does not disturb one that it does not offer to. -/
theorem undisturbed_step (h : net.Live) (hx : net.nodes.find? a = some x)
    (hy : net.nodes.find? b = some y) (hne : a ≠ b) (hunlinked : ¬net.topology.Linked a b) :
    net.Undisturbed y (net.step a).1 := by
  obtain ⟨hregistry, -, hstaleness, -⟩ := h.exchanged_kept hx
  have hapart : y.endpoint ≠ x.endpoint :=
    fun heq => hne (h.orderly.distinct b a y x hy hx heq).symm
  rw [step_eq hx]
  refine ⟨rfl, rfl, rfl, hstaleness, hregistry, ?_⟩
  have huntouched : net.touch x y.endpoint = fun e => e :=
    funext (touch_beside hapart (h.not_addresses hx hy hunlinked))
  dsimp only
  rw [h.find?_exchanged hx, huntouched, Option.map_id']

/-- A round that follows one of an unlinked device is what it would have been before it. -/
theorem step_step (h : net.Live) (hx : net.nodes.find? a = some x) (hy : net.nodes.find? b = some y)
    (hne : a ≠ b) (hunlinked : ¬net.topology.Linked a b) :
    ∃ hub : Hub, (hub.registry = net.hub.registry ∧ hub.delivery = net.hub.delivery ∧
        hub.staleness = net.hub.staleness ∧ hub.next = net.hub.next ∧
        ∀ number, hub.endpoints.find? number = (net.hub.endpoints.find? number).map
          fun e => net.touch y number (net.touch x number e)) ∧
      (net.step a).1.step b =
        ({ net with
            hub := hub
            nodes := (net.nodes.insert a
              { x with device := (x.device.round (net.settingOf x)).1 }).insert b
                { y with device := (y.device.round (net.settingOf y)).1 }
            recorder := (net.recorder.record (x.device.round (net.settingOf x)).2).record
              (y.device.round (net.settingOf y)).2
            counters := (net.counted x).count (net.intake y) (net.staleEntries y)
              (net.offered y).isSome (y.device.round (net.settingOf y)).2 },
          some (y.device.round (net.settingOf y)).2) := by
  have hstays : (Act.step a).keepsDevices := rfl
  have hkept : (net.step a).1.Live := h.keep hstays
  have hundisturbed := h.undisturbed_step hx hy hne hunlinked
  have hnode : (net.step a).1.nodes.find? b = some y := by
    rw [step_eq hx]
    exact (Dict.find?_insert_ne _ (Ne.symm hne) _).trans hy
  have hsetting : (net.step a).1.settingOf y = net.settingOf y :=
    hundisturbed.settingOf ((hkept.accepts hnode).trans (h.accepts hy).symm)
  obtain ⟨hregistry, hdelivery, hstaleness, hnext⟩ := h.exchanged_kept hx
  obtain ⟨hregistry', hdelivery', hstaleness', hnext'⟩ := hkept.exchanged_kept hnode
  have hhub : (net.step a).1.hub = net.exchanged x := by rw [step_eq hx]
  refine ⟨(net.step a).1.exchanged y, ⟨?_, ?_, ?_, ?_, ?_⟩, ?_⟩
  · rw [hregistry', hhub, hregistry]
  · rw [hdelivery', hhub, hdelivery]
  · rw [hstaleness', hhub, hstaleness]
  · rw [hnext', hhub, hnext]
  · intro number
    rw [hkept.find?_exchanged hnode, hhub, h.find?_exchanged hx, Option.map_map,
      hundisturbed.touch]
    rfl
  · rw [step_eq hnode, counted, hsetting, hundisturbed.intake h.direct hkept.direct,
      hundisturbed.staleEntries, hundisturbed.offered]
    have hstep := step_eq hx
    simp only [hstep]

/-- Rounds of devices that are not linked come to the same in both orders. -/
theorem step_comm (h : net.Live) (hx : net.nodes.find? a = some x) (hy : net.nodes.find? b = some y)
    (hne : a ≠ b) (hunlinked : ¬net.topology.Linked a b) (hunlinked' : ¬net.topology.Linked b a) :
    ((net.step a).1.step b).1 = ((net.step b).1.step a).1 ∧
      ((net.step b).1.step a).2 = (net.step a).2 ∧ ((net.step a).1.step b).2 = (net.step b).2 := by
  obtain ⟨first, ⟨hregistry, hdelivery, hstaleness, hnext, hfirst⟩, hab⟩ :=
    h.step_step hx hy hne hunlinked
  obtain ⟨second, ⟨hregistry', hdelivery', hstaleness', hnext', hsecond⟩, hba⟩ :=
    h.step_step hy hx (Ne.symm hne) hunlinked'
  have hsender : ∀ {id node m}, net.nodes.find? id = some node → m ∈ net.offered node →
      m.sender = id := fun hnode hm =>
    (evaluated_of_offered hm).1.trans (h.orderly.device _ _ hnode)
  have hhub : first = second := by
    refine Hub.ext_endpoints (hregistry.trans hregistry'.symm) (hdelivery.trans hdelivery'.symm)
      (hstaleness.trans hstaleness'.symm) (hnext.trans hnext'.symm) ?_
    intro number
    rw [hfirst, hsecond]
    congr 1
    funext e
    refine touch_comm ?_ ?_ (h.not_addresses hy hx hunlinked') (h.not_addresses hx hy hunlinked)
      number e
    · intro m hm m' hm' heq
      rw [hsender hx hm, hsender hy hm'] at heq
      exact hne heq
    · exact fun heq => hne (h.orderly.distinct a b x y hx hy heq)
  have hdevices : (x.device.round (net.settingOf x)).2.device ≠
      (y.device.round (net.settingOf y)).2.device := by
    rw [Device.device_round, Device.device_round, h.orderly.device a x hx, h.orderly.device b y hy]
    exact hne
  rw [hab, hba, step_eq hx, step_eq hy]
  refine ⟨?_, rfl, rfl⟩
  dsimp only
  rw [hhub, Dict.insert_comm _ hne, Recorder.record_comm _ hdevices, counted, counted,
    Counters.count_comm]

end Live

/-! ## Simulations -/

theorem find?_step_of_ne (net : Network) (hne : a ≠ b) :
    (net.step b).1.nodes.find? a = net.nodes.find? a := by
  cases hy : net.nodes.find? b with
  | none => rw [step_unknown hy]
  | some y =>
      rw [step_eq hy]
      exact Dict.find?_insert_ne _ hne _

/-- A device that is not there can be left out. -/
theorem step_comm_absent (hne : a ≠ b) (hx : net.nodes.find? a = none) :
    ((net.step a).1.step b).1 = ((net.step b).1.step a).1 ∧
      ((net.step b).1.step a).2 = (net.step a).2 ∧ ((net.step a).1.step b).2 = (net.step b).2 := by
  have hskip : ∀ {net : Network}, net.nodes.find? a = none → net.step a = (net, none) := by
    intro net hnone
    rw [Network.step, hnone]
  rw [hskip hx, hskip ((net.find?_step_of_ne hne).trans hx)]
  exact ⟨rfl, rfl, rfl⟩

/-- In a simulation at any time, rounds of two devices that are not linked lead to the same
simulation in both orders and come to the same, whatever the program, whether they succeed or
fail, and whichever neighbors the two devices share. -/
theorem unlinked_steps_commute {topology : Topology} (hbuilt : topology.Built) (program : Expr)
    (pacing : Pacing) {acts : List Act} (hacts : ∀ act ∈ acts, act.keepsDevices) {a b : DeviceId}
    (hne : a ≠ b)
    (hunlinked : ¬((simulation program topology pacing).run acts).topology.Linked a b) :
    let net := (simulation program topology pacing).run acts
    ((net.step a).1.step b).1 = ((net.step b).1.step a).1 ∧
      ((net.step b).1.step a).2 = (net.step a).2 ∧ ((net.step a).1.step b).2 = (net.step b).2 := by
  intro net
  have hbegin := Live.simulation program topology pacing
  have hlive : net.Live := hbegin.run hacts
  have hsymm : ¬net.topology.Linked b a := by
    rw [← topology_simulation program topology pacing] at hbuilt
    exact fun hlinked => hunlinked ((hbegin.orderly.built_run hbuilt acts).symm hlinked)
  cases hx : net.nodes.find? a with
  | none => exact step_comm_absent hne hx
  | some x =>
      cases hy : net.nodes.find? b with
      | none =>
          obtain ⟨hnet, hlast, hfirst⟩ := step_comm_absent (Ne.symm hne) hy
          exact ⟨hnet.symm, hfirst, hlast⟩
      | some y => exact hlive.step_comm hx hy hne hunlinked hsymm

/-- In a line of three, the device at one end has a reading, and the one at the other end has
heard from the device between them but has none itself. -/
def oneBlind : List Act :=
  [.changeSensors ⟨"d0"⟩ fun t => t.set "x" (.number (.ofNat 1)),
    .changeSensors ⟨"d1"⟩ fun t => t.set "x" (.number (.ofNat 2)), .step ⟨"d1"⟩]

theorem oneBlind_commutes :
    let net := (simulation (.sense "x") (.line 3) default).run oneBlind
    (net.topology.Linked ⟨"d0"⟩ ⟨"d1"⟩ ∧ net.topology.Linked ⟨"d2"⟩ ⟨"d1"⟩) ∧
      ((net.step ⟨"d0"⟩).2.map Except.isOk = some true ∧
        (net.step ⟨"d2"⟩).2.map Except.isOk = some false) ∧
      ((net.step ⟨"d0"⟩).1.step ⟨"d2"⟩).1 = ((net.step ⟨"d2"⟩).1.step ⟨"d0"⟩).1 ∧
      ((net.step ⟨"d2"⟩).1.step ⟨"d0"⟩).2 = (net.step ⟨"d0"⟩).2 ∧
      ((net.step ⟨"d0"⟩).1.step ⟨"d2"⟩).2 = (net.step ⟨"d2"⟩).2 := by
  have hacts : ∀ act ∈ oneBlind, act.keepsDevices := by decide
  have hunlinked : ¬((simulation (.sense "x") (.line 3) default).run oneBlind).topology.Linked
      ⟨"d0"⟩ ⟨"d2"⟩ := by decide +kernel
  refine ⟨by decide +kernel, by decide +kernel, ?_⟩
  exact unlinked_steps_commute (.line 3) (.sense "x") default hacts (by decide) hunlinked

end Network

end FieldCalculus
