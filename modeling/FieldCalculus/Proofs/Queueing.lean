import FieldCalculus.Library
import FieldCalculus.Proofs.Lifetime
import FieldCalculus.Proofs.Suppression

/-!
A queued hub refines a direct one. While no time passes, a queue is a table that has not been
written yet: with all that waits put into the tables, a network over a queued hub is the
network over a direct hub, and no round can tell them apart.
-/

namespace FieldCalculus

namespace NeighborTable.Current

variable {t : NeighborTable} {now : Nat}

theorem storeAll (h : t.Current now) (messages : List Message) :
    (t.storeAll messages now).Current now := by
  induction messages generalizing t with
  | nil => exact h
  | cons message rest ih => exact ih (h.store message)

end NeighborTable.Current

theorem NeighborTable.storeAll_concat (t : NeighborTable) (messages : List Message)
    (message : Message) (now : Nat) :
    t.storeAll (messages ++ [message]) now = (t.storeAll messages now).store message now :=
  List.foldl_append

/-- The endpoint with all that waits for it in its table. -/
def Endpoint.delivered (now : Nat) (e : Endpoint) : Endpoint :=
  { e with table := e.table.storeAll e.queue now, queue := [] }

/-- A message joins a queue as it would be stored in the table behind it. -/
theorem Endpoint.delivered_reach (now : Nat) (message : Message) (e : Endpoint) :
    (e.reach .queued message now).delivered now =
      (e.delivered now).reach .direct message now :=
  congrArg (fun table => { e with table := table, queue := [] })
    (e.table.storeAll_concat e.queue message now)

namespace Hub

variable {hub : Hub} {now : Nat}

/-- The direct hub that a queued one stands for: whatever waits is in the tables. -/
def delivered (hub : Hub) (now : Nat) : Hub :=
  { hub with delivery := .direct, endpoints := hub.endpoints.map (Endpoint.delivered now) }

theorem find?_delivered (hub : Hub) (now : Nat) (number : Nat) :
    (hub.delivered now).endpoints.find? number =
      (hub.endpoints.find? number).map (Endpoint.delivered now) :=
  Dict.find?_map _ _ _

theorem table_delivered (hub : Hub) (endpoint now : Nat) :
    (hub.delivered now).table endpoint = (hub.collect endpoint now).table endpoint := by
  unfold table collect
  rw [find?_delivered, find?_update, if_pos rfl]
  rfl

/-- Whatever is done to an endpoint before its queue is delivered can be done after it. -/
theorem delivered_update {endpoint : Nat} {change after : Endpoint → Endpoint}
    (h : ∀ e, (change e).delivered now = after (e.delivered now)) :
    (hub.update endpoint change).delivered now = (hub.delivered now).update endpoint after := by
  refine ext_endpoints rfl rfl rfl rfl fun number => ?_
  rw [find?_delivered, find?_update, find?_update, find?_delivered, find?_delivered]
  split
  · rw [Option.map_map, Option.map_map]
    exact congrArg (Option.map · _) (funext h)
  · rfl

theorem delivered_collect (hub : Hub) (endpoint now : Nat) :
    (hub.collect endpoint now).delivered now = hub.delivered now := by
  have hsame : (hub.collect endpoint now).delivered now = (hub.delivered now).update endpoint id :=
    delivered_update fun _ => rfl
  rw [hsame]
  exact update_eq_self fun _ _ => rfl

theorem delivered_join (hub : Hub) (id : DeviceId) (now : Nat) :
    (hub.join id).delivered now = (hub.delivered now).join id := by
  refine ext_endpoints rfl rfl rfl rfl fun number => ?_
  rw [find?_delivered, find?_join, find?_join, find?_delivered]
  split
  · rw [if_pos (by assumption)]
    rfl
  · rw [if_neg (by assumption)]

/-- A queued hub at which every id that is addressed is answered for, and where whatever has
arrived arrived just now. -/
structure Prompt (hub : Hub) (now : Nat) : Prop where
  queued : hub.delivery = .queued
  answered : ∀ id number, hub.registry.find? id = some number →
    ∃ e, hub.endpoints.find? number = some e ∧ e.held = true
  current : hub.Each fun _ e => e.table.Current now

namespace Prompt

theorem update (h : hub.Prompt now) {endpoint : Nat} {change : Endpoint → Endpoint}
    (hheld : ∀ e, (change e).held = e.held)
    (hcurrent : ∀ e, e.table.Current now → (change e).table.Current now) :
    (hub.update endpoint change).Prompt now := by
  constructor
  case queued => exact h.queued
  case answered =>
    intro id number hid
    obtain ⟨e, he, hsome⟩ := h.answered id number hid
    rw [find?_update]
    split
    · rename_i heq
      rw [heq] at he
      exact ⟨change e, by rw [he, Option.map_some], (hheld e).trans hsome⟩
    · exact ⟨e, he, hsome⟩
  case current => exact h.current.update hcurrent

theorem collect (h : hub.Prompt now) (endpoint : Nat) : (hub.collect endpoint now).Prompt now :=
  h.update (fun _ => rfl) fun e he => he.storeAll e.queue

theorem evict (h : hub.Prompt now) (endpoint : Nat) : hub.evict endpoint now = hub := by
  apply update_eq_self
  intro e he
  rw [(h.current endpoint e he).evictStale]

theorem join (h : hub.Prompt now) (id : DeviceId) : (hub.join id).Prompt now := by
  constructor
  case queued => exact h.queued
  case answered =>
    intro other number hother
    change (hub.registry.insert id hub.next).find? other = some number at hother
    rw [Dict.find?_insert] at hother
    rw [find?_join]
    split
    · exact ⟨_, rfl, rfl⟩
    · rename_i hne
      split at hother
      · cases hother
        exact absurd rfl hne
      · exact h.answered other number hother
  case current => exact h.current.join (NeighborTable.Current.empty _)

theorem settled (h : hub.Prompt now) : (hub.delivered now).Settled now := by
  intro number e he
  rw [find?_delivered, Option.map_eq_some_iff] at he
  obtain ⟨before, hbefore, rfl⟩ := he
  exact ⟨rfl, (h.current number before hbefore).storeAll before.queue⟩

/-- A message is queued for a recipient exactly when a direct hub would store it. -/
theorem deliver (h : hub.Prompt now) (message : Message) (recipient : DeviceId) :
    ∃ next stored, hub.deliver message now recipient = .ok (next, 0) ∧ next.Prompt now ∧
      (hub.delivered now).deliver message now recipient = .ok (next.delivered now, stored) := by
  cases hfound : hub.registry.find? recipient with
  | none =>
      refine ⟨hub, 0, ?_, h, ?_⟩
      · rw [Hub.deliver, hfound]
      · have hsame : (hub.delivered now).registry.find? recipient = none := hfound
        rw [Hub.deliver, hsame]
  | some endpoint =>
      obtain ⟨e, he, hheld⟩ := h.answered recipient endpoint hfound
      refine ⟨hub.update endpoint (Endpoint.reach .queued message now), 1, ?_, ?_, ?_⟩
      · rw [Hub.deliver, hfound, h.queued]
        dsimp only
        rw [he, Option.any_some, hheld]
        rfl
      · exact h.update (fun _ => rfl) fun _ hcurrent => hcurrent
      · have hsame : (hub.delivered now).registry.find? recipient = some endpoint := hfound
        rw [delivered_update (Endpoint.delivered_reach now message), Hub.deliver, hsame]
        rfl

theorem closed?_eq (h : hub.Prompt now) : hub.closed? = (hub.delivered now).closed? := by
  funext recipient
  unfold closed?
  rw [h.queued]
  cases hfound : hub.registry.find? recipient with
  | none => rfl
  | some endpoint =>
      obtain ⟨e, he, hheld⟩ := h.answered recipient endpoint hfound
      dsimp only
      rw [he, Option.any_some, hheld]
      rfl

theorem publish (h : hub.Prompt now) (message : Message) (recipients : List DeviceId) :
    (hub.publish message now recipients).fault = none ∧
      (hub.publish message now recipients).hub.Prompt now ∧
      ((hub.delivered now).publish message now recipients).hub =
        (hub.publish message now recipients).hub.delivered now := by
  induction recipients generalizing hub with
  | nil => exact ⟨rfl, h, rfl⟩
  | cons recipient rest ih =>
      obtain ⟨next, stored, hqueued, hnext, hdirect⟩ := h.deliver message recipient
      rw [Hub.publish, Hub.publish, hqueued, hdirect]
      exact ih hnext

end Prompt

end Hub

namespace Network

variable {net : Network} {id : DeviceId} {node : Node}

/-- The network over a direct hub that one over a queued hub stands for. -/
def delivered (net : Network) (counters : Counters) : Network :=
  { net with hub := net.hub.delivered net.now, counters := counters }

/-- What waits for a device is collected before its round; a direct hub has it in the table. -/
theorem swept_delivered (hprompt : net.hub.Prompt net.now) (endpoint : Nat)
    (counters : Counters) : ∃ counted,
      (net.delivered counters).swept endpoint = (net.swept endpoint).delivered counted ∧
      (net.swept endpoint).hub.Prompt net.now ∧
      ((net.delivered counters).swept endpoint).hub.table endpoint =
        (net.swept endpoint).hub.table endpoint := by
  -- no time passes, so nothing is ever old enough to be evicted
  have hevict : (net.swept endpoint).hub = net.hub.collect endpoint net.now :=
    (hprompt.collect endpoint).evict endpoint
  have hswept : ((net.delivered counters).swept endpoint).hub = net.hub.delivered net.now := by
    change ((net.hub.delivered net.now).collect endpoint net.now).evict endpoint net.now = _
    rw [hprompt.settled.collect, hprompt.settled.evict]
  have hhub : ((net.delivered counters).swept endpoint).hub =
      (net.swept endpoint).hub.delivered net.now := by
    rw [hswept, hevict, Hub.delivered_collect]
  refine ⟨((net.delivered counters).swept endpoint).counters, ?_, ?_, ?_⟩
  · exact congrArg (fun hub => Network.mk net.program net.pacing hub net.topology
      net.neighborhood net.nodes net.recorder _ net.now net.ready) hhub
  · rw [hevict]
    exact hprompt.collect endpoint
  · rw [hswept, hevict]
    exact net.hub.table_delivered endpoint net.now

theorem offer_delivered (hprompt : net.hub.Prompt net.now) (node : Node)
    (recipients : DeviceSet) (offer : Option Message) (counters : Counters) : ∃ counted,
      (net.delivered counters).offer node recipients offer =
        ((net.offer node recipients offer).1.delivered counted,
          (net.offer node recipients offer).2) ∧
      (net.offer node recipients offer).1.hub.Prompt net.now ∧
      (net.offer node recipients offer).1.now = net.now := by
  cases offer with
  | none => exact ⟨counters, rfl, hprompt, rfl⟩
  | some message =>
      obtain ⟨hfault, hafter, hhub⟩ := hprompt.publish message recipients.toList
      obtain ⟨-, hdirect⟩ := (net.hub.delivered net.now).publish_direct rfl message net.now
        recipients.toList
      unfold Network.offer
      dsimp only
      -- the counters differ: a direct hub stores at once what a queued one counts later
      by_cases hlink : node.linkDown = true
      · rw [if_pos hlink, if_pos hlink]
        exact ⟨counters, rfl, hprompt, rfl⟩
      · rw [if_neg hlink, if_neg hlink]
        refine ⟨counters.addTraffic ((net.hub.delivered net.now).publish message net.now
          recipients.toList).stored 0, ?_, hafter, rfl⟩
        have hpublication : (net.delivered counters).hub.publish message
            (net.delivered counters).now recipients.toList =
              (net.hub.delivered net.now).publish message net.now recipients.toList := rfl
        rw [hpublication, hfault, hdirect, hhub]
        rfl

/-- A device meets with the same in its next round over either hub. -/
theorem settingOf_delivered (hprompt : net.hub.Prompt net.now) (node : Node)
    (counters : Counters) : (net.delivered counters).settingOf node = net.settingOf node := by
  obtain ⟨-, -, -, htable⟩ := swept_delivered hprompt node.endpoint counters
  have hheard : (net.delivered counters).heard node = net.heard node :=
    congrArg (fun table => NeighborTable.snapshot table (net.neighborsOf node).toList net.now)
      htable
  have haccepts : (net.delivered counters).accepts node = net.accepts node :=
    congrArg (fun closed => !node.linkDown &&
      ((net.neighborsOf node).toList.findSome? closed).isNone) hprompt.closed?_eq.symm
  rw [settingOf, hheard, haccepts]
  rfl

/-- A round over either hub comes to the same, and the networks go on being alike. -/
theorem stepNode_delivered (hprompt : net.hub.Prompt net.now) (id : DeviceId) (node : Node)
    (counters : Counters) : ∃ counted,
      (net.delivered counters).stepNode id node =
        ((net.stepNode id node).1.delivered counted, (net.stepNode id node).2) ∧
      (net.stepNode id node).1.hub.Prompt (net.stepNode id node).1.now := by
  have hsetting := settingOf_delivered hprompt node counters
  have hoffered : (net.delivered counters).offered node = net.offered node :=
    congrArg node.device.offer hsetting
  obtain ⟨collected, hswept, hcollected, -⟩ := swept_delivered hprompt node.endpoint counters
  obtain ⟨counted, hoffer, hafter, hnow⟩ := offer_delivered hcollected node (net.neighborsOf node)
    (net.offered node) collected
  have hexchanged : (net.delivered counters).exchanged node =
      (net.exchanged node).delivered net.now := by
    have hneighbors : (net.delivered counters).neighborsOf node = net.neighborsOf node := rfl
    rw [exchanged, hswept, hoffered, hneighbors, hoffer]
    exact congrArg (Hub.delivered _) hnow
  obtain ⟨direct, hdirect⟩ := (net.delivered counters).stepNode_round id node
  obtain ⟨queued, hqueued⟩ := net.stepNode_round id node
  rw [hdirect, hqueued, hsetting, hexchanged]
  exact ⟨direct, rfl, hafter⟩

theorem step_delivered (hprompt : net.hub.Prompt net.now) (id : DeviceId) (counters : Counters) :
    ∃ counted,
      (net.delivered counters).step id = ((net.step id).1.delivered counted, (net.step id).2) ∧
      (net.step id).1.hub.Prompt (net.step id).1.now := by
  have hfound : (net.delivered counters).nodes.find? id = net.nodes.find? id := rfl
  unfold Network.step
  rw [hfound]
  cases net.nodes.find? id with
  | none => exact ⟨counters, rfl, hprompt⟩
  | some node =>
      obtain ⟨counted, hstep, hafter⟩ := stepNode_delivered hprompt id node counters
      refine ⟨counted, ?_, hafter⟩
      dsimp only
      rw [hstep]

theorem join_delivered (hprompt : net.hub.Prompt net.now) (hnew : net.nodes.find? id = none)
    (program : Expr) (pacing : Pacing) (counters : Counters) :
    (net.delivered counters).perform (.join id program pacing) =
        (net.perform (.join id program pacing)).delivered counters ∧
      (net.perform (.join id program pacing)).hub.Prompt net.now := by
  have hjoined : ∀ {net : Network}, net.nodes.find? id = none →
      net.perform (.join id program pacing) = { net with
        hub := net.hub.join id
        nodes := (net.perform (.join id program pacing)).nodes } := by
    intro net hnew
    simp only [perform, Network.join, hnew]
  have hsame : (net.delivered counters).nodes.find? id = none := hnew
  rw [hjoined hnew, hjoined hsame]
  refine ⟨?_, hprompt.join id⟩
  exact congrArg (fun hub => Network.mk net.program net.pacing hub net.topology net.neighborhood
    _ net.recorder counters net.now net.ready) (net.hub.delivered_join id net.now).symm

theorem outcome_of_roundOf?_step (net : Network) (id : DeviceId) :
    (net.roundOf? (.step id)).map (fun r => (r.id, r.outcome)) =
      (net.step id).2.map fun outcome => (id, outcome) := by
  rw [roundOf?, Network.step]
  cases net.nodes.find? id <;> rfl

/-- Whatever lets no time pass and takes nothing away brings about the same round over either
hub, and the networks go on being alike. -/
theorem perform_delivered (hprompt : net.hub.Prompt net.now) {act : Act}
    (htimeless : act.isTimeless) (hnew : net.replaces act = false) (counters : Counters) :
    ∃ counted,
      (net.delivered counters).perform act = (net.perform act).delivered counted ∧
      (net.perform act).hub.Prompt (net.perform act).now ∧
      ((net.delivered counters).roundOf? act).map (fun r => (r.id, r.outcome)) =
        (net.roundOf? act).map fun r => (r.id, r.outcome) := by
  cases act with
  | step id =>
      obtain ⟨counted, hstep, hafter⟩ := step_delivered hprompt id counters
      refine ⟨counted, congrArg Prod.fst hstep, hafter, ?_⟩
      rw [outcome_of_roundOf?_step, outcome_of_roundOf?_step, hstep]
  | join id program pacing =>
      have hnobody : net.nodes.find? id = none := by
        simpa [replaces] using hnew
      obtain ⟨hjoin, hafter⟩ := join_delivered hprompt hnobody program pacing counters
      exact ⟨counters, hjoin, hafter, rfl⟩
  | addToTopology _ => exact ⟨counters, rfl, hprompt, rfl⟩
  | link _ _ => exact ⟨counters, rfl, hprompt, rfl⟩
  | unlink _ _ => exact ⟨counters, rfl, hprompt, rfl⟩
  | changeSensors _ _ => exact ⟨counters, rfl, hprompt, rfl⟩
  | observe _ _ => exact ⟨counters, rfl, hprompt, rfl⟩
  | _ => cases htimeless

/-- A whole run over a queued hub, and the run over a direct hub that it stands for. -/
theorem run_delivered (hprompt : net.hub.Prompt net.now) {acts : List Act}
    (hsteady : net.isSteady acts) (counters : Counters) :
    (∃ counted, (net.delivered counters).run acts = (net.run acts).delivered counted) ∧
      ((net.delivered counters).history acts).map (fun r => (r.id, r.outcome)) =
        (net.history acts).map fun r => (r.id, r.outcome) := by
  induction acts generalizing net counters with
  | nil => exact ⟨⟨counters, rfl⟩, rfl⟩
  | cons act rest ih =>
      simp only [isSteady, Bool.and_eq_true, Bool.not_eq_true'] at hsteady
      obtain ⟨⟨htimeless, hnew⟩, hrest⟩ := hsteady
      obtain ⟨counted, hact, hafter, hround⟩ :=
        perform_delivered hprompt htimeless hnew counters
      obtain ⟨hrun, hhistory⟩ := ih hafter hrest counted
      rw [← hact] at hrun hhistory
      refine ⟨hrun, ?_⟩
      rw [history, history, List.map_append, List.map_append, hhistory, ← Option.toList_map,
        ← Option.toList_map, hround]

theorem isSteady_of_append {acts rest : List Act} (h : net.isSteady (acts ++ rest)) :
    net.isSteady acts := by
  induction acts generalizing net with
  | nil => rfl
  | cons act others ih =>
      simp only [List.cons_append, isSteady, Bool.and_eq_true] at h ⊢
      exact ⟨h.1, ih h.2⟩

/-- A queued hub refines a direct one. While no time passes and no device is taken away or
replaced, the same acts lead to the same rounds over both, and after each of the acts every
device is the same, its state included. -/
theorem queued_refines_direct (program : Expr) (pacing : Pacing) (topology : Topology)
    (neighborhood : Neighborhood) {acts : List Act}
    (hsteady : (empty program pacing .queued topology neighborhood).isSteady acts) :
    let direct := empty program pacing .direct topology neighborhood
    let queued := empty program pacing .queued topology neighborhood
    ((queued.history acts).map fun r => (r.id, r.outcome)) =
        ((direct.history acts).map fun r => (r.id, r.outcome)) ∧
      ∀ earlier, earlier <+: acts →
        (queued.run earlier).nodes = (direct.run earlier).nodes ∧
          (queued.run earlier).recorder = (direct.run earlier).recorder := by
  intro direct queued
  have hprompt : queued.hub.Prompt queued.now := by
    refine ⟨rfl, ?_, ?_⟩
    · intro id number hid
      cases hid
    · intro number e he
      cases he
  have hstart : direct = queued.delivered queued.counters := rfl
  rw [hstart]
  refine ⟨(run_delivered hprompt hsteady _).2.symm, ?_⟩
  rintro earlier ⟨rest, rfl⟩
  obtain ⟨⟨counted, hrun⟩, -⟩ := run_delivered hprompt (isSteady_of_append hsteady) queued.counters
  rw [hrun]
  exact ⟨rfl, rfl⟩

/-- Two devices are linked. Messages to the second one pile up until it does its first round,
and the link is gone when the first one does its last. -/
def pilingUp : List Act :=
  [.join ⟨"a"⟩ (Library.gossipMax (.sense "v")) default,
    .join ⟨"b"⟩ (Library.gossipMax (.sense "v")) default, .link ⟨"a"⟩ ⟨"b"⟩,
    .changeSensors ⟨"a"⟩ fun t => t.set "v" (.number (.ofNat 1)), .step ⟨"a"⟩,
    .changeSensors ⟨"a"⟩ fun t => t.set "v" (.number (.ofNat 2)), .step ⟨"a"⟩, .step ⟨"b"⟩,
    .changeSensors ⟨"b"⟩ fun t => t.set "v" (.number (.ofNat 3)), .step ⟨"b"⟩, .step ⟨"b"⟩,
    .unlink ⟨"a"⟩ ⟨"b"⟩, .step ⟨"a"⟩]

theorem pilingUp_refines :
    let direct := empty (.literal .unit) default .direct .empty .topology
    let queued := empty (.literal .unit) default .queued .empty .topology
    ((queued.history pilingUp).map fun r => (r.id, r.outcome)) =
        ((direct.history pilingUp).map fun r => (r.id, r.outcome)) ∧
      (queued.run pilingUp).nodes = (direct.run pilingUp).nodes := by
  have hsteady : (empty (.literal .unit) default .queued .empty .topology).isSteady pilingUp := by
    decide +kernel
  obtain ⟨hhistory, hnodes⟩ :=
    queued_refines_direct (.literal .unit) default .empty .topology hsteady
  exact ⟨hhistory, (hnodes pilingUp (List.prefix_refl _)).1⟩

end Network

end FieldCalculus
