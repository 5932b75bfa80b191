import FieldCalculus.Proofs.Lifetime
import Mathlib.Algebra.Ring.Nat

/-!
What the counters of a network add up to. Each round is counted once as completed or abandoned,
and one that is completed once more as published or suppressed. What is published comes into the
tables of all neighbors, and no more entries leave the tables or stay in them than messages came.
-/

namespace FieldCalculus

/-! ## Sums over a dictionary -/

/-- The sum of a measure over all values. -/
def Dict.total {κ ν : Type} [Ord κ] (d : Dict κ ν) (measure : ν → Nat) : Nat :=
  (d.entries.map fun entry => measure entry.2).sum

theorem Dict.total_one {κ ν : Type} [Ord κ] (d : Dict κ ν) : d.total (fun _ => 1) = d.size := by
  rw [total, List.map_const', List.sum_replicate_nat, Nat.mul_one]
  rfl

section Sums

variable {κ ν : Type} [Ord κ] [Std.TransOrd κ] [Std.LawfulEqOrd κ] {key : κ} {value : ν}
  {entries : List (κ × ν)}

/-- A key before all others is not found. -/
theorem Entries.find?_of_lt (h : ∀ entry ∈ entries, compare key entry.1 = .lt) :
    find? key entries = none := by
  apply Option.eq_none_iff_forall_ne_some.mpr
  intro found hfound
  exact not_lt_self key (h _ (mem_of_find? hfound))

/-- Storing a value adds it and takes away the one in its place. -/
theorem Entries.sum_insert (h : Ordered entries) (measure : ν → Nat) :
    ((insert key value entries).map fun entry => measure entry.2).sum +
        ((find? key entries).map measure).getD 0 =
      (entries.map fun entry => measure entry.2).sum + measure value := by
  induction entries with
  | nil => simp [insert, find?]
  | cons head rest ih =>
      obtain ⟨k, v⟩ := head
      obtain ⟨hhead, hrest⟩ := List.pairwise_cons.mp h
      unfold insert
      split
      · rename_i hlt
        have hnone : find? key ((k, v) :: rest) = none := by
          apply find?_of_lt
          intro entry hentry
          rcases List.mem_cons.mp hentry with rfl | hlater
          · exact hlt
          · exact Std.TransCmp.lt_trans hlt (hhead entry hlater)
        simp [hnone, Nat.add_comm]
      · rename_i heq
        simp [find?, heq]
        omega
      · rename_i hgt
        have hrest := ih hrest
        simp only [find?, hgt, List.map_cons, List.sum_cons]
        rw [if_neg (by simp)]
        omega

theorem Dict.total_insert (d : Dict κ ν) (key : κ) (value : ν) (measure : ν → Nat) :
    (d.insert key value).total measure + ((d.find? key).map measure).getD 0 =
      d.total measure + measure value :=
  Entries.sum_insert d.ordered measure

theorem Dict.size_insert_le (d : Dict κ ν) : (d.insert key value).size ≤ d.size + 1 := by
  have hinsert := d.total_insert key value fun _ => 1
  rw [total_one, total_one] at hinsert
  omega

end Sums

/-! ## Entries in tables -/

namespace NeighborTable

theorem size_store_le (t : NeighborTable) (message : Message) (now : Nat) :
    (t.store message now).size ≤ t.size + 1 :=
  t.entries.size_insert_le

theorem size_storeAll_le (t : NeighborTable) (messages : List Message) (now : Nat) :
    (t.storeAll messages now).size ≤ t.size + messages.length := by
  induction messages generalizing t with
  | nil => exact Nat.le_refl _
  | cons message rest ih =>
      have hrest := ih (t.store message now)
      have hfirst := t.size_store_le message now
      rw [List.length_cons]
      change ((t.store message now).storeAll rest now).size ≤ _
      omega

end NeighborTable

namespace Hub

variable {hub next : Hub} {endpoint : Nat} {e : Endpoint} {change : Endpoint → Endpoint}
  {message : Message} {now extra stored : Nat}

/-- How many entries there are in all tables together. -/
def entryCount (hub : Hub) : Nat := hub.endpoints.total fun e => e.table.size

theorem entryCount_update (change : Endpoint → Endpoint)
    (he : hub.endpoints.find? endpoint = some e) :
    (hub.update endpoint change).entryCount + e.table.size =
      hub.entryCount + (change e).table.size := by
  have hinsert := hub.endpoints.total_insert endpoint (change e) fun e => e.table.size
  rw [he, Option.map_some, Option.getD_some] at hinsert
  rw [← entryCount] at hinsert
  rw [← hinsert, entryCount, update, Dict.modify, he]

theorem update_absent (he : hub.endpoints.find? endpoint = none) :
    hub.update endpoint change = hub := by
  rw [update, Dict.modify, he]

theorem entryCount_update_le
    (hchange : ∀ e, hub.endpoints.find? endpoint = some e →
      (change e).table.size ≤ e.table.size + extra) :
    (hub.update endpoint change).entryCount ≤ hub.entryCount + extra := by
  cases he : hub.endpoints.find? endpoint with
  | none =>
      rw [update_absent he]
      exact Nat.le_add_right _ _
  | some e =>
      have hupdate := entryCount_update change he
      have hsize := hchange e he
      omega

theorem entryCount_collect_le (hub : Hub) (endpoint now : Nat) :
    (hub.collect endpoint now).entryCount ≤ hub.entryCount + hub.waiting endpoint := by
  apply entryCount_update_le
  intro e he
  rw [waiting, he]
  exact e.table.size_storeAll_le e.queue now

/-- What is dropped for its age was there before. -/
theorem entryCount_evict (hub : Hub) (endpoint now : Nat) :
    (hub.evict endpoint now).entryCount + (hub.table endpoint).staleCount now =
      hub.entryCount := by
  cases he : hub.endpoints.find? endpoint with
  | none =>
      have hempty : (hub.table endpoint).staleCount now = 0 := by
        rw [table, he]
        rfl
      rw [evict, update_absent he, hempty, Nat.add_zero]
  | some e =>
      have hupdate := entryCount_update (fun e => { e with table := e.table.evictStale now }) he
      have hsize := e.table.size_evictStale_le now
      have hstale : (hub.table endpoint).staleCount now =
          e.table.size - (e.table.evictStale now).size := by
        rw [table, he]
        rfl
      change (hub.evict endpoint now).entryCount + _ = _ + (e.table.evictStale now).size at hupdate
      omega

theorem entryCount_deliver_le {recipient : DeviceId}
    (h : hub.deliver message now recipient = .ok (next, stored)) :
    next.entryCount ≤ hub.entryCount + stored := by
  unfold deliver at h
  cases hfound : hub.registry.find? recipient with
  | none =>
      rw [hfound] at h
      cases h
      exact Nat.le_add_right _ _
  | some endpoint =>
      rw [hfound] at h
      cases hdelivery : hub.delivery with
      | direct =>
          rw [hdelivery] at h
          cases h
          exact entryCount_update_le fun e _ => e.table.size_store_le message now
      | queued =>
          rw [hdelivery] at h
          dsimp only at h
          split at h
          · cases h
            exact entryCount_update_le fun e _ => Nat.le_refl _
          · cases h

theorem entryCount_publish_le (hub : Hub) (message : Message) (now : Nat)
    (recipients : List DeviceId) : (hub.publish message now recipients).hub.entryCount ≤
      hub.entryCount + (hub.publish message now recipients).stored := by
  induction recipients generalizing hub with
  | nil => exact Nat.le_refl _
  | cons recipient rest ih =>
      rw [publish]
      split
      · exact Nat.le_refl _
      · rename_i next stored hdeliver
        have hfirst := entryCount_deliver_le hdeliver
        have hrest := ih next
        dsimp only
        omega

theorem entryCount_join_le (hub : Hub) (id : DeviceId) :
    (hub.join id).entryCount ≤ hub.entryCount := by
  have hinsert := hub.endpoints.total_insert hub.next ⟨id, .empty hub.staleness, [], true⟩
    fun e => e.table.size
  change (hub.join id).entryCount + _ = hub.entryCount + 0 at hinsert
  omega

theorem entryCount_drop_le (hub : Hub) (endpoint : Nat) :
    (hub.drop endpoint).entryCount ≤ hub.entryCount := by
  cases he : hub.endpoints.find? endpoint with
  | none =>
      rw [drop, he]
  | some e =>
      have hinsert := hub.endpoints.total_insert endpoint { e with held := false }
        fun e => e.table.size
      rw [he, Option.map_some, Option.getD_some] at hinsert
      rw [drop, he]
      change (hub.endpoints.insert endpoint { e with held := false }).total _ ≤ _
      exact Nat.le_of_eq (Nat.add_right_cancel hinsert)

end Hub

/-! ## What a round counts -/

namespace Counters

variable {received evicted : Nat} {offered : Bool} {outcome : RoundOutcome}

/-- Rounds abandoned, for whatever cause. -/
def abandoned (c : Counters) : Nat := c.failures.total id

theorem abandoned_addFailure (c : Counters) (fault : Fault) :
    (c.addFailure fault).abandoned = c.abandoned + 1 := by
  have hinsert := c.failures.total_insert fault.label ((c.failures.find? fault.label).getD 0 + 1) id
  rw [Option.map_id, id_eq, id_eq] at hinsert
  change (c.failures.insert fault.label ((c.failures.find? fault.label).getD 0 + 1)).total id = _
  rw [abandoned]
  omega

theorem rounds_count (c : Counters) :
    (c.count received evicted offered outcome).rounds +
        (c.count received evicted offered outcome).abandoned = c.rounds + c.abandoned + 1 := by
  cases outcome with
  | error failure =>
      have habandoned := (c.addTraffic received evicted).abandoned_addFailure failure.error.fault
      rw [count, habandoned]
      rfl
  | ok report => exact Nat.add_right_comm _ _ _

/-- Where all that is offered is published, a completed round is one or the other. -/
theorem exports_count (c : Counters) (h : ∀ report, outcome = .ok report →
      report.published = offered) :
    (c.count received evicted offered outcome).published +
        (c.count received evicted offered outcome).suppressed + c.rounds =
      c.published + c.suppressed + (c.count received evicted offered outcome).rounds := by
  cases outcome with
  | error failure => rfl
  | ok report =>
      rw [count, h report rfl]
      cases offered <;> simp [addRound, addTraffic] <;> omega

theorem received_count (c : Counters) :
    (c.count received evicted offered outcome).received = c.received + received := by
  cases outcome <;> rfl

theorem evicted_count (c : Counters) :
    (c.count received evicted offered outcome).evicted = c.evicted + evicted := by
  cases outcome <;> rfl

end Counters

namespace Network

variable {net : Network} {id : DeviceId} {node : Node} {act : Act}

/-- The neighbors that a round was for. -/
def RoundRecord.neighbors (r : RoundRecord) : DeviceSet := r.before.neighborsOf r.node

/-- Whether the exchange took the export of a round. -/
def RoundRecord.published (r : RoundRecord) : Bool := r.report?.any RoundReport.published

/-- All neighbors of a device that does a round have joined. -/
def RoundRecord.AmongJoined (r : RoundRecord) : Prop :=
  ∀ id ∈ r.neighbors.toList, (r.before.hub.registry.find? id).isSome

instance (r : RoundRecord) : Decidable r.AmongJoined :=
  inferInstanceAs (Decidable (∀ id ∈ r.neighbors.toList, (r.before.hub.registry.find? id).isSome))

/-- Nothing waits at the endpoints of a direct hub. -/
theorem Orderly.waiting_direct (h : net.Orderly) (hdirect : net.hub.delivery = .direct)
    (endpoint : Nat) : net.hub.waiting endpoint = 0 := by
  unfold Hub.waiting
  cases he : net.hub.endpoints.find? endpoint with
  | none => rfl
  | some e => exact congrArg List.length (h.unqueued hdirect endpoint e he)

/-- Over a direct hub a device publishes whatever it offers. -/
theorem Orderly.published_eq_offered (h : net.Orderly) (hdirect : net.hub.delivery = .direct)
    (hnode : net.nodes.find? id = some node) :
    (RoundRecord.mk net id node (node.device.round (net.settingOf node)).2).published =
      (net.offered node).isSome := by
  have haccepts : (net.settingOf node).accepts = true := h.accepts_direct hdirect hnode
  rw [offered_eq]
  cases houtcome : evaluate node.device.program (node.device.inputs (net.settingOf node)) with
  | error error =>
      rw [Device.round_of_error houtcome, Device.offer_of_error houtcome]
      rfl
  | ok result =>
      rw [Device.round_of_ok houtcome, Device.offer_of_ok houtcome, haccepts, Bool.and_true]
      cases hsends : node.device.sends result.exported <;>
        simp [RoundRecord.published, RoundRecord.report?]

/-- Over a direct hub what comes into tables in a round is what the device publishes, once for
each of its neighbors. -/
theorem Orderly.intake_direct (h : net.Orderly) (hdirect : net.hub.delivery = .direct)
    (hnode : net.nodes.find? id = some node)
    (hjoined : (net.offered node).isSome → ∀ id ∈ (net.neighborsOf node).toList,
      (net.hub.registry.find? id).isSome) :
    net.intake node = if (net.offered node).isSome then (net.neighborsOf node).size else 0 := by
  rw [intake, h.waiting_direct hdirect, Nat.zero_add]
  cases hoffered : net.offered node with
  | none => rfl
  | some message =>
      have hswept : (net.swept node.endpoint).hub.delivery = .direct := hdirect
      have hall := hjoined (by rw [hoffered]; rfl)
      dsimp only
      rw [h.linkUp id node hnode, if_neg Bool.false_ne_true, Hub.stored_publish hswept]
      change (net.neighborsOf node).toList.countP (fun id => (net.hub.registry.find? id).isSome) = _
      rw [List.countP_eq_length.mpr hall]
      exact List.length_map _

/-- Whatever a round drops from tables or leaves in them was there or has come in. -/
theorem entryCount_exchanged_le (net : Network) (node : Node) :
    (net.exchanged node).entryCount + net.staleEntries node ≤
      net.hub.entryCount + net.intake node := by
  have hcollected := net.hub.entryCount_collect_le node.endpoint net.now
  have hswept : (net.swept node.endpoint).hub.entryCount + net.staleEntries node =
      (net.hub.collect node.endpoint net.now).entryCount :=
    (net.hub.collect node.endpoint net.now).entryCount_evict node.endpoint net.now
  rw [exchanged, intake]
  cases net.offered node with
  | none =>
      change (net.swept node.endpoint).hub.entryCount + _ ≤ _
      omega
  | some message =>
      unfold offer
      cases node.linkDown with
      | true =>
          change (net.swept node.endpoint).hub.entryCount + _ ≤ _
          dsimp only
          rw [if_pos rfl]
          omega
      | false =>
          have hpublished := (net.swept node.endpoint).hub.entryCount_publish_le message net.now
            (net.neighborsOf node).toList
          simp only [if_neg Bool.false_ne_true]
          change ((net.swept node.endpoint).hub.publish message net.now _).hub.entryCount + _ ≤ _
          omega

/-- Nothing is counted without a round, and no entry comes into a table. -/
theorem unrecorded_perform (h : net.roundOf? act = none) :
    (net.perform act).counters = net.counters ∧
      (net.perform act).hub.entryCount ≤ net.hub.entryCount := by
  cases act with
  | step id =>
      have hunknown := Option.map_eq_none_iff.mp h
      rw [perform, Network.step, hunknown]
      exact ⟨rfl, Nat.le_refl _⟩
  | join id program pacing =>
      refine ⟨rfl, ?_⟩
      have hjoin := net.hub.entryCount_join_le id
      rcases net.hub_perform_join id program pacing with hhub | ⟨endpoint, hhub⟩
      · rw [hhub]
        exact hjoin
      · rw [hhub]
        exact Nat.le_trans ((net.hub.join id).entryCount_drop_le endpoint) hjoin
  | drop id =>
      rw [perform, Network.drop]
      cases net.nodes.find? id with
      | none => exact ⟨rfl, Nat.le_refl _⟩
      | some node => exact ⟨rfl, net.hub.entryCount_drop_le node.endpoint⟩
  | _ => exact ⟨rfl, Nat.le_refl _⟩

/-! ## The whole run -/

/-- How the counters stand to those at the start, given the rounds since then. -/
structure Balanced (start : Counters) (net : Network) (past : List RoundRecord) : Prop where
  steps : net.counters.rounds + net.counters.abandoned =
    start.rounds + start.abandoned + past.length
  exports : net.counters.published + net.counters.suppressed + start.rounds =
    start.published + start.suppressed + net.counters.rounds
  received : (∀ r ∈ past, r.published → r.AmongJoined) → net.counters.received =
    start.received + ((past.filter RoundRecord.published).map fun r => r.neighbors.size).sum
  entries : net.counters.evicted + net.hub.entryCount + start.received ≤
    start.evicted + net.counters.received

namespace Balanced

variable {start : Counters} {past : List RoundRecord}

theorem round (h : net.Balanced start past) (horderly : net.Orderly)
    (hdirect : net.hub.delivery = .direct) (hnode : net.nodes.find? id = some node) :
    (net.step id).1.Balanced start (past ++ [⟨net, id, node, (net.stepNode id node).2⟩]) := by
  have hpublished := horderly.published_eq_offered hdirect hnode
  rw [step_eq hnode, outcome_stepNode]
  constructor
  case steps =>
    have hcount : (net.counted node).rounds + (net.counted node).abandoned = _ :=
      net.counters.rounds_count
    rw [hcount, h.steps, List.length_append]
    rfl
  case exports =>
    have hreports : ∀ report, (node.device.round (net.settingOf node)).2 = .ok report →
        report.published = (net.offered node).isSome := by
      intro report hreport
      rw [← hpublished, RoundRecord.published, RoundRecord.report?, hreport]
      rfl
    have hcount : (net.counted node).published + (net.counted node).suppressed +
        net.counters.rounds = _ + (net.counted node).rounds := net.counters.exports_count hreports
    have hexports := h.exports
    change (net.counted node).published + (net.counted node).suppressed + start.rounds =
      _ + (net.counted node).rounds
    omega
  case received =>
    intro hjoined
    have hbefore := h.received fun r hr => hjoined r (by simp [hr])
    have hlast := hjoined _ (List.mem_append_right past (List.mem_singleton_self _))
    change (net.counted node).received = _
    rw [RoundRecord.AmongJoined, hpublished] at hlast
    rw [counted, Counters.received_count, hbefore, horderly.intake_direct hdirect hnode hlast,
      List.filter_append, List.map_append, List.sum_append, Nat.add_assoc, List.filter_cons,
      hpublished]
    cases (net.offered node).isSome <;> simp [RoundRecord.neighbors]
  case entries =>
    have hround := net.entryCount_exchanged_le node
    have hentries := h.entries
    change (net.counted node).evicted + (net.exchanged node).entryCount + _ ≤
      _ + (net.counted node).received
    rw [counted, Counters.received_count, Counters.evicted_count]
    omega

theorem perform (h : net.Balanced start past) (horderly : net.Orderly)
    (hdirect : net.hub.delivery = .direct) (act : Act) :
    (net.perform act).Balanced start (past ++ (net.roundOf? act).toList) := by
  cases hrecord : net.roundOf? act with
  | some r =>
      obtain ⟨id, node, rfl, hnode, rfl⟩ := exists_of_roundOf? hrecord
      exact h.round horderly hdirect hnode
  | none =>
      obtain ⟨hcounters, hcount⟩ := unrecorded_perform hrecord
      have hentries := h.entries
      rw [Option.toList_none, List.append_nil]
      constructor
      case entries =>
        rw [hcounters]
        omega
      all_goals rw [hcounters]
      · exact h.steps
      · exact h.exports
      · exact h.received

end Balanced

/-- Over a direct hub the counters of every run balance. -/
theorem balanced_run (program : Expr) (pacing : Pacing) (topology : Topology)
    (neighborhood : Neighborhood) (counters : Counters) (acts : List Act) :
    let start := { empty program pacing .direct topology neighborhood with counters := counters }
    (start.run acts).Balanced counters (start.history acts) := by
  intro start
  have hempty := Orderly.empty program pacing .direct topology neighborhood
  have hstart : start.Orderly :=
    hempty.change (fun _ => rfl) (.refl _) hempty.window hempty.unqueued
  have hbegin : start.Balanced counters [] := ⟨rfl, rfl, fun _ => rfl, Nat.le_refl _⟩
  have hrun : ((start.run acts).Orderly ∧ (start.run acts).hub.delivery = .direct) ∧
      (start.run acts).Balanced counters (start.history acts) := by
    apply run_invariant (fun _ => True) (fun net past =>
      (net.Orderly ∧ net.hub.delivery = .direct) ∧ net.Balanced counters past)
      ⟨⟨hstart, rfl⟩, hbegin⟩ ?_ fun _ _ => trivial
    rintro net past act ⟨⟨horderly, hdirect⟩, hbalanced⟩ -
    have hdelivery := (horderly.perform_hub act).1
    exact ⟨⟨horderly.perform act, hdelivery.trans hdirect⟩, hbalanced.perform horderly hdirect act⟩
  exact hrun.2

/-- What the counters of a network over a direct hub add up to, from the start of any run to its
end. Every step is counted as a round completed or abandoned, every completed round as published or
suppressed, and every publication as a message for each neighbor, all of them having joined. No more
entries leave the tables or stay in them than messages came. -/
theorem counters_balance (program : Expr) (pacing : Pacing) (topology : Topology)
    (neighborhood : Neighborhood) (counters : Counters) (acts : List Act) :
    let start := { empty program pacing .direct topology neighborhood with counters := counters }
    let final := start.run acts
    let past := start.history acts
    (∀ r ∈ past, r.published → r.AmongJoined) →
      final.counters.rounds + final.counters.abandoned =
        counters.rounds + counters.abandoned + past.length ∧
      final.counters.published + final.counters.suppressed + counters.rounds =
        counters.published + counters.suppressed + final.counters.rounds ∧
      final.counters.received =
        counters.received + ((past.filter RoundRecord.published).map fun r => r.neighbors.size).sum ∧
      final.counters.evicted + final.hub.entryCount + counters.received ≤
        counters.evicted + final.counters.received := by
  intro start final past hjoined
  obtain ⟨hsteps, hexports, hreceived, hentries⟩ :=
    balanced_run program pacing topology neighborhood counters acts
  exact ⟨hsteps, hexports, hreceived hjoined, hentries⟩

/-- Two devices hear each other until one is forgotten, and a third fails for want of a sensor. -/
def hearingAndForgetting : List Act :=
  [.join ⟨"a"⟩ (.literal .unit) default, .join ⟨"b"⟩ (.literal .unit) default,
    .join ⟨"c"⟩ (.sense "heat") default, .link ⟨"a"⟩ ⟨"b"⟩, .link ⟨"b"⟩ ⟨"c"⟩, .step ⟨"a"⟩,
    .step ⟨"b"⟩, .step ⟨"a"⟩, .step ⟨"c"⟩, .advance 5000, .step ⟨"a"⟩]

theorem hearingAndForgetting_balance :
    let start := { Network.empty (.literal .unit) default .direct .empty .topology with
      counters := .zero }
    let final := start.run hearingAndForgetting
    let past := start.history hearingAndForgetting
    (∀ r ∈ past, r.published → r.AmongJoined) ∧
      (final.counters.evicted = 1 ∧ final.hub.entryCount = 2) ∧
      final.counters.rounds + final.counters.abandoned =
        Counters.zero.rounds + Counters.zero.abandoned + past.length ∧
      final.counters.published + final.counters.suppressed + Counters.zero.rounds =
        Counters.zero.published + Counters.zero.suppressed + final.counters.rounds ∧
      final.counters.received = Counters.zero.received +
        ((past.filter RoundRecord.published).map fun r => r.neighbors.size).sum ∧
      final.counters.evicted + final.hub.entryCount + Counters.zero.received ≤
        Counters.zero.evicted + final.counters.received := by
  -- Without their definition the acts are not run to compare the sums.
  generalize hacts : hearingAndForgetting = acts
  intro start final past
  have hjoined : ∀ r ∈ past, r.published → r.AmongJoined := by
    subst hacts
    decide +kernel
  have hentries : final.counters.evicted = 1 ∧ final.hub.entryCount = 2 := by
    subst hacts
    decide +kernel
  exact ⟨hjoined, hentries,
    counters_balance (.literal .unit) default .empty .topology .zero acts hjoined⟩

end Network

end FieldCalculus
