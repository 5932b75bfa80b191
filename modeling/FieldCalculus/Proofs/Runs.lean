import FieldCalculus.Proofs.Endpoints
import FieldCalculus.Proofs.Simulation
import Mathlib.Data.List.Induction

/-!
Runs of a network in the course of time, over either kind of hub: what can happen to it, the
rounds that a run consists of, and all that one round can change.
-/

namespace FieldCalculus

namespace Hub

variable {hub : Hub} {good : Nat → Endpoint → Prop}

theorem Alike.drop (hub : Hub) (endpoint : Nat) : hub.Alike (hub.drop endpoint) := by
  have hpresent : ∀ number, ((hub.drop endpoint).endpoints.find? number).isSome =
      (hub.endpoints.find? number).isSome := by
    intro number
    rw [find?_drop, Option.isSome_map]
  unfold Hub.drop at hpresent ⊢
  split at hpresent
  · exact .refl hub
  · exact ⟨rfl, rfl, rfl, hpresent⟩

theorem Each.drop (h : hub.Each good)
    (hgood : ∀ number e, good number e → good number { e with held := false })
    (endpoint : Nat) : (hub.drop endpoint).Each good := by
  intro number e he
  rw [find?_drop, Option.map_eq_some_iff] at he
  obtain ⟨before, hbefore, rfl⟩ := he
  split
  · exact hgood number before (h number before hbefore)
  · exact h number before hbefore

theorem Each.join (h : hub.Each good) {id : DeviceId}
    (hnew : good hub.next ⟨id, .empty hub.staleness, [], true⟩) : (hub.join id).Each good := by
  intro number e he
  rw [find?_join] at he
  split at he
  · rename_i heq
    cases he
    rw [heq]
    exact hnew
  · exact h number e he

end Hub

namespace Network

variable {net next : Network} {id : DeviceId} {node : Node}

/-! ## What can happen -/

/-- Anything that happens to a network in the course of time. -/
inductive Act where
  | advance (ms : Nat)
  | step (id : DeviceId)
  /-- A new device, with a program and a pace of its own. -/
  | join (id : DeviceId) (program : Expr) (pacing : Pacing)
  | drop (id : DeviceId)
  /-- The hub stops addressing a device. -/
  | leave (id : DeviceId)
  | addToTopology (id : DeviceId)
  | link (a b : DeviceId)
  | unlink (a b : DeviceId)
  | changeSensors (id : DeviceId) (change : SensorTable → SensorTable)
  | observe (id peer : DeviceId)

/-- The network after an act. -/
def perform (net : Network) : Act → Network
  | .advance ms => net.advance ms
  | .step id => (net.step id).1
  | .join id program pacing =>
    { { net with pacing := pacing }.join id program with pacing := net.pacing }
  | .drop id => net.drop id
  | .leave id => { net with hub := net.hub.leave id }
  | .addToTopology id => { net with topology := net.topology.addDevice id }
  | .link a b => net.link a b
  | .unlink a b => net.unlink a b
  | .changeSensors id change => net.updateSensors id change
  | .observe id peer => net.observe id peer

def run (net : Network) (acts : List Act) : Network := acts.foldl perform net

theorem run_append (net : Network) (first second : List Act) :
    net.run (first ++ second) = (net.run first).run second :=
  List.foldl_append

/-! ## The rounds of a run -/

/-- A round, the network in which it began and what it came to. -/
structure RoundRecord where
  before : Network
  id : DeviceId
  node : Node
  outcome : RoundOutcome

def RoundRecord.time (r : RoundRecord) : Nat := r.before.now

/-- What a round that succeeded reported. -/
def RoundRecord.report? (r : RoundRecord) : Option RoundReport :=
  match r.outcome with
  | .ok report => some report
  | .error _ => none

/-- The round that an act brings about. -/
def roundOf? (net : Network) : Act → Option RoundRecord
  | .step id => (net.nodes.find? id).map fun node => ⟨net, id, node, (net.stepNode id node).2⟩
  | _ => none

/-- A round is brought about by a step of a device. -/
theorem exists_of_roundOf? {act : Act} {r : RoundRecord} (h : net.roundOf? act = some r) :
    ∃ id node, act = .step id ∧ net.nodes.find? id = some node ∧
      r = ⟨net, id, node, (net.stepNode id node).2⟩ := by
  cases act with
  | step id =>
      rw [roundOf?, Option.map_eq_some_iff] at h
      obtain ⟨node, hnode, rfl⟩ := h
      exact ⟨id, node, rfl, hnode, rfl⟩
  | _ => cases h

theorem found_of_roundOf? {act : Act} {r : RoundRecord} (h : net.roundOf? act = some r) :
    net.nodes.find? r.id = some r.node := by
  obtain ⟨id, node, -, hnode, rfl⟩ := exists_of_roundOf? h
  exact hnode

/-- The rounds that acts bring about in turn. -/
def history (net : Network) : List Act → List RoundRecord
  | [] => []
  | act :: rest => (net.roundOf? act).toList ++ (net.perform act).history rest

theorem history_append (net : Network) (first second : List Act) :
    net.history (first ++ second) = net.history first ++ (net.run first).history second := by
  induction first generalizing net with
  | nil => rfl
  | cons act rest ih =>
      rw [List.cons_append, history, history, ih, List.append_assoc]
      rfl

theorem run_concat (net : Network) (acts : List Act) (act : Act) :
    net.run (acts ++ [act]) = (net.run acts).perform act :=
  run_append net acts [act]

theorem history_concat (net : Network) (acts : List Act) (act : Act) :
    net.history (acts ++ [act]) = net.history acts ++ ((net.run acts).roundOf? act).toList := by
  rw [history_append, history, history, List.append_nil]

/-- What holds of a network and the rounds behind it after one more act, whatever the act,
holds after every run. -/
theorem run_invariant (allowed : Act → Prop) (good : Network → List RoundRecord → Prop)
    (hbegin : good net [])
    (hact : ∀ net past act, good net past → allowed act →
      good (net.perform act) (past ++ (net.roundOf? act).toList))
    {acts : List Act} (hallowed : ∀ act ∈ acts, allowed act) :
    good (net.run acts) (net.history acts) := by
  induction acts using List.reverseRecOn with
  | nil => exact hbegin
  | append_singleton acts act ih =>
      rw [run_concat, history_concat]
      refine hact _ _ act (ih ?_) (hallowed act (by simp))
      exact fun other hother => hallowed other (by simp [hother])

/-- Every round of a history is brought about by an act, and the acts before it bring about
the rounds before it. -/
theorem exists_act_of_history {acts : List Act} {earlier later : List RoundRecord} {r : RoundRecord}
    (h : net.history acts = earlier ++ r :: later) :
    ∃ first act rest, acts = first ++ act :: rest ∧ net.history first = earlier ∧
      (net.run first).roundOf? act = some r := by
  induction acts generalizing net earlier with
  | nil =>
      rw [history, eq_comm, List.append_eq_nil_iff] at h
      cases h.2
  | cons act rest ih =>
      rw [history] at h
      cases hround : net.roundOf? act with
      | none =>
          rw [hround, Option.toList_none, List.nil_append] at h
          obtain ⟨first, later, rest, rfl, hearlier, hr⟩ := ih h
          refine ⟨act :: first, later, rest, rfl, ?_, hr⟩
          rw [history, hround, Option.toList_none, List.nil_append, hearlier]
      | some s =>
          rw [hround, Option.toList_some, List.singleton_append] at h
          cases earlier with
          | nil =>
              cases h
              exact ⟨[], act, rest, rfl, rfl, hround⟩
          | cons e earlier =>
              rw [List.cons_append, List.cons.injEq] at h
              obtain ⟨rfl, hrest⟩ := h
              obtain ⟨first, later, rest, rfl, rfl, hr⟩ := ih hrest
              refine ⟨act :: first, later, rest, rfl, ?_, hr⟩
              rw [history, hround]
              rfl

/-! ## The rounds of one device -/

/-- The rounds of a device, in order of time. -/
def roundsOf (past : List RoundRecord) (id : DeviceId) : List RoundRecord :=
  past.filter fun r => r.id = id

theorem roundsOf_concat_self (past : List RoundRecord) {r : RoundRecord} (h : r.id = id) :
    roundsOf (past ++ [r]) id = roundsOf past id ++ [r] := by
  rw [roundsOf, List.filter_append, List.filter_cons_of_pos (by simpa using h)]
  rfl

theorem roundsOf_concat_other (past : List RoundRecord) {r : RoundRecord} (h : r.id ≠ id) :
    roundsOf (past ++ [r]) id = roundsOf past id := by
  rw [roundsOf, List.filter_append, List.filter_cons_of_neg (by simpa using h)]
  exact List.append_nil _

/-- The rounds of a device after an act: one more if it was the device's own, or as before. -/
theorem roundsOf_append_roundOf? (net : Network) (past : List RoundRecord) (act : Act)
    (id : DeviceId) :
    (∃ node, act = .step id ∧ net.nodes.find? id = some node ∧
      roundsOf (past ++ (net.roundOf? act).toList) id =
        roundsOf past id ++ [⟨net, id, node, (net.stepNode id node).2⟩]) ∨
    ((∀ r, net.roundOf? act = some r → r.id ≠ id) ∧
      roundsOf (past ++ (net.roundOf? act).toList) id = roundsOf past id) := by
  cases hrecord : net.roundOf? act with
  | none =>
      refine Or.inr ⟨fun r hr => ?_, ?_⟩
      · cases hr
      · rw [Option.toList_none, List.append_nil]
  | some r =>
      rw [Option.toList_some]
      by_cases heq : r.id = id
      · cases act with
        | step other =>
            rw [roundOf?, Option.map_eq_some_iff] at hrecord
            obtain ⟨node, hnode, rfl⟩ := hrecord
            subst heq
            exact Or.inl ⟨node, rfl, hnode, roundsOf_concat_self past rfl⟩
        | _ => cases hrecord
      · refine Or.inr ⟨fun s hs => ?_, roundsOf_concat_other past heq⟩
        cases hs
        exact heq

/-! ## What a round does -/

/-- The network once an endpoint has collected what waits for it and dropped what is stale. -/
def swept (net : Network) (endpoint : Nat) : Network := (net.collect endpoint).evict endpoint

/-- The exports that take part in the next round of a device. -/
def heard (net : Network) (node : Node) : NeighborSnapshot :=
  ((net.swept node.endpoint).inbox node).snapshot (net.neighborsOf node).toList net.now

/-- What the next round of a device computes from. -/
def inputsAt (net : Network) (node : Node) : RoundInputs :=
  ⟨node.device.id, node.sensors.sensors, node.device.state, net.heard node⟩

/-- The message that a device hands to the exchange in its next round, if any. -/
def offered (net : Network) (node : Node) : Option Message :=
  match (node.device.attempt node.sensors.sensors (net.heard node) net.now).2 with
  | .ok attempt => attempt.offer
  | .error _ => none

def RoundRecord.offered (r : RoundRecord) : Option Message := r.before.offered r.node

/-- A round has led to a network: the device changed, and nothing besides it but the hub and
what is recorded. -/
structure Turned (net : Network) (id : DeviceId) (node : Node) (device : Device) (hub : Hub)
    (next : Network) : Prop where
  same : node.device.Same device
  nodes : ∀ other, next.nodes.find? other =
    if other = id then some { node with device := device } else net.nodes.find? other
  hub : next.hub = hub
  now : next.now = net.now
  topology : next.topology = net.topology
  neighborhood : next.neighborhood = net.neighborhood

/-- All that a round can do. -/
inductive RoundResult (net : Network) (id : DeviceId) (node : Node) (next : Network) :
    RoundOutcome → Prop where
  | failed {failure : RoundFailure} {device : Device}
    (evaluated : evaluate node.device.program (net.inputsAt node) = .error failure.error)
    (silent : net.offered node = none)
    (lastExport : device.lastExport = node.device.lastExport)
    (quietRounds : device.quietRounds = node.device.quietRounds)
    (turned : net.Turned id node device (net.swept node.endpoint).hub next) :
    RoundResult net id node next (.error failure)
  | quiet {report : RoundReport} {device : Device}
    (evaluated : evaluate node.device.program (net.inputsAt node) =
      .ok ⟨report.value, report.exported⟩)
    (silent : net.offered node = none)
    (unchanged : node.device.isChanged report.exported = false)
    (notDue : node.device.isDue = false)
    (lastExport : device.lastExport = node.device.lastExport)
    (quietRounds : device.quietRounds = node.device.quietRounds + 1)
    (turned : net.Turned id node device (net.swept node.endpoint).hub next) :
    RoundResult net id node next (.ok report)
  | offered {report : RoundReport} {device : Device} {message : Message} {hub : Hub.Publication}
    (evaluated : evaluate node.device.program (net.inputsAt node) =
      .ok ⟨report.value, report.exported⟩)
    (offer : net.offered node = some message)
    (sender : message.sender = node.device.id)
    (exported : message.exported = report.exported)
    (publication : hub = (net.swept node.endpoint).hub.publish message net.now
      (net.neighborsOf node).toList)
    (accepted : hub.fault = none →
      device.lastExport = some report.exported ∧ device.quietRounds = 0)
    (refused : hub.fault ≠ none → device.lastExport = node.device.lastExport ∧
      device.quietRounds = node.device.quietRounds)
    (turned : net.Turned id node device hub.hub next) :
    RoundResult net id node next (.ok report)

theorem offered_of_error {error : EvalError}
    (h : evaluate node.device.program (net.inputsAt node) = .error error) :
    net.offered node = none := by
  rw [offered, Device.attempt_of_error h]

theorem offered_of_ok {result : Evaluation}
    (h : evaluate node.device.program (net.inputsAt node) = .ok result) :
    net.offered node = if node.device.isChanged result.exported || node.device.isDue then
      some ⟨node.device.id, UInt64.ofNat node.device.rounds, .ofMillis net.now, result.exported⟩
      else none := by
  rw [offered, Device.attempt_of_ok h]

/-- Whatever is offered is the export of a round that succeeds. -/
theorem evaluated_of_offered {message : Message} (h : net.offered node = some message) :
    message.sender = node.device.id ∧ ∃ result,
      evaluate node.device.program (net.inputsAt node) = .ok result ∧
        message.exported = result.exported := by
  cases houtcome : evaluate node.device.program (net.inputsAt node) with
  | error error =>
      rw [offered_of_error houtcome] at h
      cases h
  | ok result =>
      rw [offered_of_ok houtcome] at h
      split at h
      · cases h
        exact ⟨rfl, result, rfl, rfl⟩
      · cases h

theorem offer_up (net : Network) (hlink : node.linkDown = false) (recipients : DeviceSet)
    (message : Message) :
    ∃ counters, net.offer node recipients (some message) =
      ({ net with
        hub := (net.hub.publish message net.now recipients.toList).hub
        counters := counters },
        (net.hub.publish message net.now recipients.toList).fault.isNone) := by
  refine ⟨net.counters.addTraffic (net.hub.publish message net.now recipients.toList).stored 0, ?_⟩
  unfold offer
  dsimp only
  rw [hlink, if_neg Bool.false_ne_true]

/-- Whatever a round does is one of the three. -/
theorem stepNode_result (id : DeviceId) (hlink : node.linkDown = false) :
    net.RoundResult id node (net.stepNode id node).1 (net.stepNode id node).2 := by
  have hheard : (((net.collect node.endpoint).evict node.endpoint).inbox node).snapshot
      (net.neighborsOf node).toList ((net.collect node.endpoint).evict node.endpoint).now =
        net.heard node := rfl
  rw [stepNode, hheard]
  cases houtcome : evaluate node.device.program (net.inputsAt node) with
  | error error =>
      rw [Device.attempt_of_error houtcome]
      dsimp only
      refine .failed houtcome (offered_of_error houtcome) ?_ ?_
        ⟨?_, fun other => Dict.find?_insert _ _ _ _, rfl, rfl, rfl, rfl⟩
      all_goals first | rfl | exact ⟨rfl, rfl, rfl⟩
  | ok result =>
      have hoffered := offered_of_ok houtcome
      rw [Device.attempt_of_ok houtcome]
      dsimp only
      by_cases hsend : node.device.isChanged result.exported || node.device.isDue
      · rw [if_pos hsend] at hoffered ⊢
        obtain ⟨counters, hoffer⟩ := ((net.collect node.endpoint).evict node.endpoint).offer_up
          hlink (net.neighborsOf node) ⟨node.device.id, UInt64.ofNat node.device.rounds,
            .ofMillis net.now, result.exported⟩
        have hnow : ((net.collect node.endpoint).evict node.endpoint).now = net.now := rfl
        rw [hnow] at hoffer ⊢
        rw [hoffer]
        dsimp only
        refine .offered houtcome hoffered ?_ ?_ rfl ?_ ?_
          ⟨?_, fun other => Dict.find?_insert _ _ _ _, rfl, rfl, rfl, rfl⟩
        case refine_3 =>
          intro hnone
          unfold swept at hnone
          rw [hnone]
          exact ⟨rfl, rfl⟩
        case refine_4 =>
          intro hsome
          unfold swept at hsome
          rw [Option.isNone_eq_false_iff.mpr (Option.isSome_iff_ne_none.mpr hsome)]
          exact ⟨rfl, rfl⟩
        case refine_5 =>
          cases Option.isNone _
          · exact ⟨rfl, rfl, rfl⟩
          · exact ⟨rfl, rfl, rfl⟩
        all_goals rfl
      · rw [if_neg hsend] at hoffered ⊢
        rw [Bool.not_eq_true, Bool.or_eq_false_iff] at hsend
        refine .quiet houtcome hoffered hsend.1 hsend.2 ?_ ?_
          ⟨?_, fun other => Dict.find?_insert _ _ _ _, rfl, rfl, rfl, rfl⟩
        all_goals first | rfl | exact ⟨rfl, rfl, rfl⟩

theorem Turned.plug {device : Device} {hub : Hub} (h : net.Turned id node device hub next)
    (hnode : net.nodes.find? id = some node) (other : DeviceId) :
    (next.nodes.find? other).map Node.plug = (net.nodes.find? other).map Node.plug := by
  rw [h.nodes]
  split
  · rename_i heq
    rw [heq, hnode, Option.map_some, Option.map_some, h.same.plug]
  · rfl

theorem swept_alike (net : Network) (endpoint : Nat) :
    net.hub.Alike (net.swept endpoint).hub :=
  (Hub.Alike.update _ _ _).trans (.update _ _ _)

theorem RoundResult.alike {outcome : RoundOutcome} (h : net.RoundResult id node next outcome) :
    net.hub.Alike next.hub := by
  have halike := net.swept_alike node.endpoint
  cases h with
  | failed _ _ _ _ hturned => exact hturned.hub ▸ halike
  | quiet _ _ _ _ _ _ hturned => exact hturned.hub ▸ halike
  | offered _ _ _ _ hpublication _ _ hturned =>
      rw [hturned.hub, hpublication]
      exact halike.trans (Hub.publish_alike _ _ _ _)

theorem RoundResult.turned {outcome : RoundOutcome} (h : net.RoundResult id node next outcome) :
    ∃ device hub, net.Turned id node device hub next := by
  cases h with
  | failed _ _ _ _ hturned => exact ⟨_, _, hturned⟩
  | quiet _ _ _ _ _ _ hturned => exact ⟨_, _, hturned⟩
  | offered _ _ _ _ _ _ _ hturned => exact ⟨_, _, hturned⟩

/-- What every endpoint has, it has once one of them is swept. -/
theorem each_swept {good : Nat → Endpoint → Prop} (h : net.hub.Each good) {endpoint : Nat}
    (hcollect : ∀ e, good endpoint e →
      good endpoint { e with table := e.table.storeAll e.queue net.now, queue := [] })
    (hevict : ∀ e, good endpoint e →
      good endpoint { e with table := e.table.evictStale net.now }) :
    (net.swept endpoint).hub.Each good :=
  (h.update hcollect).update hevict

/-! ## Networks in order -/

/-- What holds of every network that began without devices, whatever happened to it. -/
structure Orderly (net : Network) : Prop where
  device : ∀ id node, net.nodes.find? id = some node → node.device.id = id
  linkUp : ∀ id node, net.nodes.find? id = some node → node.linkDown = false
  distinct : ∀ a b x y, net.nodes.find? a = some x → net.nodes.find? b = some y →
    x.endpoint = y.endpoint → a = b
  present : ∀ id node, net.nodes.find? id = some node →
    (net.hub.endpoints.find? node.endpoint).isSome
  numbered : ∀ number, (net.hub.endpoints.find? number).isSome → number < net.hub.next
  window : net.hub.Each fun _ e => e.table.staleness = net.hub.staleness
  unqueued : net.hub.delivery = .direct → net.hub.Each fun _ e => e.queue = []

namespace Orderly

theorem empty (program : Expr) (pacing : Pacing) (delivery : Delivery) (topology : Topology)
    (neighborhood : Neighborhood) :
    (Network.empty program pacing delivery topology neighborhood).Orderly := by
  constructor
  case numbered =>
    intro number hnumber
    cases hnumber
  case window =>
    intro number e he
    cases he
  case unqueued =>
    intro _ number e he
    cases he
  all_goals simp [Network.empty]

/-- A network stays in order when devices and endpoints stay where they are. -/
theorem change (h : net.Orderly)
    (hplug : ∀ id, (next.nodes.find? id).map Node.plug = (net.nodes.find? id).map Node.plug)
    (halike : net.hub.Alike next.hub)
    (hwindow : next.hub.Each fun _ e => e.table.staleness = net.hub.staleness)
    (hunqueued : net.hub.delivery = .direct → next.hub.Each fun _ e => e.queue = []) :
    next.Orderly := by
  have hbefore : ∀ id node, next.nodes.find? id = some node → ∃ before,
      net.nodes.find? id = some before ∧ before.device.id = node.device.id ∧
        before.endpoint = node.endpoint ∧ before.linkDown = node.linkDown := by
    intro id node hnode
    obtain ⟨before, hfound, heq⟩ := find?_of_plug hplug hnode
    simp only [Node.plug, Prod.mk.injEq] at heq
    exact ⟨before, hfound, heq.1, heq.2.1, heq.2.2⟩
  constructor
  case device =>
    intro id node hnode
    obtain ⟨before, hfound, hdevice, -, -⟩ := hbefore id node hnode
    rw [← hdevice, h.device id before hfound]
  case linkUp =>
    intro id node hnode
    obtain ⟨before, hfound, -, -, hlink⟩ := hbefore id node hnode
    rw [← hlink, h.linkUp id before hfound]
  case distinct =>
    intro a b x y hx hy heq
    obtain ⟨x', hx', -, hxe, -⟩ := hbefore a x hx
    obtain ⟨y', hy', -, hye, -⟩ := hbefore b y hy
    refine h.distinct a b x' y' hx' hy' ?_
    rw [hxe, hye, heq]
  case present =>
    intro id node hnode
    obtain ⟨before, hfound, -, hendpoint, -⟩ := hbefore id node hnode
    rw [halike.present, ← hendpoint]
    exact h.present id before hfound
  case numbered =>
    intro number hnumber
    rw [halike.present] at hnumber
    rw [halike.numbering]
    exact h.numbered number hnumber
  case window =>
    rw [halike.staleness]
    exact hwindow
  case unqueued =>
    rw [halike.delivery]
    exact hunqueued

theorem swept (h : net.Orderly) (endpoint : Nat) :
    ((net.swept endpoint).hub.Each fun _ e => e.table.staleness = net.hub.staleness) ∧
      (net.hub.delivery = .direct → (net.swept endpoint).hub.Each fun _ e => e.queue = []) := by
  refine ⟨each_swept h.window ?_ fun e he => he, ?_⟩
  · intro e he
    exact (NeighborTable.staleness_storeAll _ _ _).trans he
  · exact fun hdirect => each_swept (h.unqueued hdirect) (fun _ _ => rfl) fun e he => he

theorem round (h : net.Orderly) (hnode : net.nodes.find? id = some node)
    {outcome : RoundOutcome} (hresult : net.RoundResult id node next outcome) :
    next.Orderly := by
  obtain ⟨hwindow, hunqueued⟩ := h.swept node.endpoint
  have halike := hresult.alike
  have hunsent : ∀ device, net.Turned id node device (net.swept node.endpoint).hub next →
      next.Orderly := by
    intro device hturned
    have hhub := hturned.hub
    refine h.change (hturned.plug hnode) halike ?_ ?_
    · rw [hhub]
      exact hwindow
    · rw [hhub]
      exact hunqueued
  cases hresult with
  | failed _ _ _ _ hturned => exact hunsent _ hturned
  | quiet _ _ _ _ _ _ hturned => exact hunsent _ hturned
  | offered _ _ _ _ hpublication _ _ hturned =>
      refine h.change (hturned.plug hnode) halike ?_ ?_
      · rw [hturned.hub, hpublication]
        refine hwindow.publish ?_ _
        intro number e he
        cases hdelivery : (net.swept node.endpoint).hub.delivery <;> exact he
      · rw [hturned.hub, hpublication]
        intro hdirect
        refine (hunqueued hdirect).publish ?_ _
        intro number e he
        rw [(net.swept_alike node.endpoint).delivery, hdirect]
        exact he

end Orderly

/-! ## Devices that come and go -/

/-- What stands for a device that has just joined. -/
theorem find?_perform_join (net : Network) (id : DeviceId) (program : Expr) (pacing : Pacing)
    (other : DeviceId) :
    (net.perform (.join id program pacing)).nodes.find? other =
      if other = id then some ⟨.start id program pacing, .empty, net.hub.next, false,
        .empty id (match net.neighborhood with
          | .peers ttl => ttl
          | _ => 0)⟩
      else net.nodes.find? other :=
  Dict.find?_insert _ _ _ _

/-- Joining opens an endpoint and may give up an older one. -/
theorem hub_perform_join (net : Network) (id : DeviceId) (program : Expr) (pacing : Pacing) :
    (net.perform (.join id program pacing)).hub = net.hub.join id ∨
      ∃ endpoint, (net.perform (.join id program pacing)).hub =
        (net.hub.join id).drop endpoint := by
  cases hfound : net.nodes.find? id with
  | none =>
      left
      simp only [perform, Network.join, hfound]
  | some old =>
      right
      exact ⟨old.endpoint, by simp only [perform, Network.join, hfound]⟩

theorem alike_perform_join (net : Network) (id : DeviceId) (program : Expr) (pacing : Pacing) :
    (net.hub.join id).Alike (net.perform (.join id program pacing)).hub := by
  rcases net.hub_perform_join id program pacing with hhub | ⟨endpoint, hhub⟩
  · rw [hhub]
    exact .refl _
  · rw [hhub]
    exact .drop _ endpoint

theorem each_perform_join {good : Nat → Endpoint → Prop} (h : net.hub.Each good)
    {id : DeviceId} (hnew : good net.hub.next ⟨id, .empty net.hub.staleness, [], true⟩)
    (hdrop : ∀ number e, good number e → good number { e with held := false })
    (program : Expr) (pacing : Pacing) :
    (net.perform (.join id program pacing)).hub.Each good := by
  have hjoined := h.join hnew
  rcases net.hub_perform_join id program pacing with hhub | ⟨endpoint, hhub⟩
  · rw [hhub]
    exact hjoined
  · rw [hhub]
    exact hjoined.drop hdrop endpoint

theorem perform_drop (net : Network) (id : DeviceId) :
    net.perform (.drop id) = net ∨ ∃ endpoint, (net.perform (.drop id)).hub =
      net.hub.drop endpoint ∧ (net.perform (.drop id)).nodes = net.nodes.erase id ∧
        (net.perform (.drop id)).now = net.now := by
  change net.drop id = net ∨ ∃ endpoint, (net.drop id).hub = _ ∧ (net.drop id).nodes = _ ∧
    (net.drop id).now = _
  unfold Network.drop
  cases net.nodes.find? id with
  | none => exact Or.inl rfl
  | some node => exact Or.inr ⟨node.endpoint, rfl, rfl, rfl⟩

namespace Orderly

theorem join (h : net.Orderly) (id : DeviceId) (program : Expr) (pacing : Pacing) :
    (net.perform (.join id program pacing)).Orderly := by
  have hfind := net.find?_perform_join id program pacing
  have halike := net.alike_perform_join id program pacing
  have hopened : ∀ number, ((net.hub.join id).endpoints.find? number).isSome =
      (number = net.hub.next || (net.hub.endpoints.find? number).isSome) := by
    intro number
    rw [Hub.find?_join]
    split
    · rename_i heq
      simp [heq]
    · rename_i hne
      simp [hne]
  -- The number of the new endpoint is above those of all others.
  have hbelow : ∀ other node, net.nodes.find? other = some node →
      node.endpoint < net.hub.next := fun other node hnode =>
    h.numbered _ (h.present other node hnode)
  have hdevice : ∀ other node, (net.perform (.join id program pacing)).nodes.find? other =
      some node → node.device.id = other ∧ node.linkDown = false := by
    intro other node hnode
    rw [hfind] at hnode
    split at hnode
    · rename_i heq
      cases hnode
      exact ⟨heq.symm, rfl⟩
    · exact ⟨h.device other node hnode, h.linkUp other node hnode⟩
  constructor
  case device => exact fun other node hnode => (hdevice other node hnode).1
  case linkUp => exact fun other node hnode => (hdevice other node hnode).2
  case distinct =>
    intro a b x y hx hy heq
    rw [hfind] at hx hy
    split at hx <;> split at hy
    · rename_i ha hb
      rw [ha, hb]
    · cases hx
      exact absurd heq (Nat.ne_of_gt (hbelow b y hy))
    · cases hy
      exact absurd heq (Nat.ne_of_lt (hbelow a x hx))
    · exact h.distinct a b x y hx hy heq
  case present =>
    intro other node hnode
    rw [halike.present, hopened]
    rw [hfind] at hnode
    split at hnode
    · cases hnode
      simp
    · simp [h.present other node hnode]
  case numbered =>
    intro number hnumber
    rw [halike.present, hopened, Bool.or_eq_true, decide_eq_true_eq] at hnumber
    rw [halike.numbering]
    change number < net.hub.next + 1
    rcases hnumber with hnew | hold
    · omega
    · have := h.numbered number hold
      omega
  case window =>
    rw [halike.staleness]
    exact each_perform_join h.window rfl (fun _ _ he => he) program pacing
  case unqueued =>
    rw [halike.delivery]
    exact fun hdirect =>
      each_perform_join (h.unqueued hdirect) rfl (fun _ _ he => he) program pacing

theorem drop (h : net.Orderly) (id : DeviceId) : (net.perform (.drop id)).Orderly := by
  rcases net.perform_drop id with heq | ⟨endpoint, hhub, hnodes, -⟩
  · rw [heq]
    exact h
  · have halike := Hub.Alike.drop net.hub endpoint
    have hbefore : ∀ other node, (net.perform (.drop id)).nodes.find? other = some node →
        net.nodes.find? other = some node := by
      intro other node hnode
      rw [hnodes, Dict.find?_erase] at hnode
      split at hnode
      · cases hnode
      · exact hnode
    constructor
    case device => exact fun other node hnode => h.device other node (hbefore other node hnode)
    case linkUp => exact fun other node hnode => h.linkUp other node (hbefore other node hnode)
    case distinct =>
      exact fun a b x y hx hy => h.distinct a b x y (hbefore a x hx) (hbefore b y hy)
    case present =>
      intro other node hnode
      rw [hhub, halike.present]
      exact h.present other node (hbefore other node hnode)
    case numbered =>
      intro number hnumber
      rw [hhub, halike.present] at hnumber
      rw [hhub, halike.numbering]
      exact h.numbered number hnumber
    case window =>
      rw [hhub, halike.staleness]
      exact h.window.drop (fun _ _ he => he) endpoint
    case unqueued =>
      rw [hhub, halike.delivery]
      exact fun hdirect => (h.unqueued hdirect).drop (fun _ _ he => he) endpoint

end Orderly

/-- An act among devices that stay, where a change of sensors keeps something. -/
def Act.Settled (keeps : (SensorTable → SensorTable) → Prop) : Act → Prop
  | .advance _ | .step _ | .link _ _ | .unlink _ _ => True
  | .changeSensors _ change => keeps change
  | _ => False

/-- Such an act is a step, or does nothing to devices but change sensors. -/
theorem Act.Settled.step_or_edit {keeps : (SensorTable → SensorTable) → Prop} {act : Act}
    (h : act.Settled keeps) (net : Network) :
    (∃ id, act = .step id) ∨ net.roundOf? act = none ∧
      ∀ id node, (net.perform act).nodes.find? id = some node → ∃ before,
        net.nodes.find? id = some before ∧ node.device = before.device ∧
          (node.sensors = before.sensors ∨
            ∃ change, keeps change ∧ node.sensors = change before.sensors) := by
  have hsame : ∀ id node, net.nodes.find? id = some node → ∃ before,
      net.nodes.find? id = some before ∧ node.device = before.device ∧
        (node.sensors = before.sensors ∨
          ∃ change, keeps change ∧ node.sensors = change before.sensors) :=
    fun id node hnode => ⟨node, hnode, rfl, Or.inl rfl⟩
  cases act with
  | step id => exact Or.inl ⟨id, rfl⟩
  | advance _ => exact Or.inr ⟨rfl, hsame⟩
  | link _ _ => exact Or.inr ⟨rfl, hsame⟩
  | unlink _ _ => exact Or.inr ⟨rfl, hsame⟩
  | changeSensors id change =>
      refine Or.inr ⟨rfl, ?_⟩
      intro other node hnode
      change (net.nodes.modify id _).find? other = some node at hnode
      rw [Dict.find?_modify] at hnode
      split at hnode
      · rename_i heq
        obtain ⟨before, hbefore, rfl⟩ := Option.map_eq_some_iff.mp hnode
        exact ⟨before, heq ▸ hbefore, rfl, Or.inr ⟨change, h, rfl⟩⟩
      · exact hsame other node hnode
  | _ => cases h

/-- Whether an act makes a device join or leave. -/
def Act.moves (id : DeviceId) : Act → Bool
  | .join other _ _ | .drop other | .leave other => other = id
  | _ => false

/-! ## Everything else -/

/-- Whether an act leaves all devices and endpoints as they are. -/
def Act.rearranges : Act → Bool
  | .step _ | .join _ _ _ | .drop _ => false
  | _ => true

/-- Surroundings changed, and no device and no endpoint did. -/
structure Rearranged (net next : Network) : Prop where
  devices : ∀ id, (next.nodes.find? id).map (fun n => (n.device, n.endpoint, n.linkDown)) =
    (net.nodes.find? id).map fun n => (n.device, n.endpoint, n.linkDown)
  endpoints : next.hub.endpoints = net.hub.endpoints
  alike : net.hub.Alike next.hub
  now : net.now ≤ next.now

namespace Rearranged

theorem plug (h : net.Rearranged next) (id : DeviceId) :
    (next.nodes.find? id).map Node.plug = (net.nodes.find? id).map Node.plug := by
  have hdevice := congrArg (Option.map fun p : Device × Nat × Bool => (p.1.id, p.2)) (h.devices id)
  rw [Option.map_map, Option.map_map] at hdevice
  exact hdevice

theorem each {good : Nat → Endpoint → Prop} (h : net.Rearranged next) (heach : net.hub.Each good) :
    next.hub.Each good := by
  intro number e he
  rw [h.endpoints] at he
  exact heach number e he

end Rearranged

theorem rearranged_updateNode (net : Network) (id : DeviceId) {change : Node → Node}
    (hchange : ∀ n, ((change n).device, (change n).endpoint, (change n).linkDown) =
      (n.device, n.endpoint, n.linkDown)) : net.Rearranged (net.updateNode id change) := by
  refine ⟨?_, rfl, .refl _, Nat.le_refl _⟩
  intro other
  change Option.map _ ((net.nodes.modify id change).find? other) = _
  rw [Dict.find?_modify]
  split
  · rename_i heq
    rw [heq, Option.map_map]
    exact congrArg (Option.map · _) (funext hchange)
  · rfl

theorem perform_rearranges (net : Network) {act : Act} (hact : act.rearranges) :
    net.Rearranged (net.perform act) := by
  cases act with
  | step _ => cases hact
  | join _ _ _ => cases hact
  | drop _ => cases hact
  | advance ms => exact ⟨fun _ => rfl, rfl, .refl _, Nat.le_add_right _ _⟩
  | leave id => exact ⟨fun _ => rfl, rfl, ⟨rfl, rfl, rfl, fun _ => rfl⟩, Nat.le_refl _⟩
  | addToTopology id => exact ⟨fun _ => rfl, rfl, .refl _, Nat.le_refl _⟩
  | link a b => exact ⟨fun _ => rfl, rfl, .refl _, Nat.le_refl _⟩
  | unlink a b => exact ⟨fun _ => rfl, rfl, .refl _, Nat.le_refl _⟩
  | changeSensors id change => exact net.rearranged_updateNode id fun _ => rfl
  | observe id peer => exact net.rearranged_updateNode id fun _ => rfl

/-! ## Every act -/

/-- All that an act can do. -/
inductive ActResult (net : Network) (act : Act) : Prop where
  | unknown (same : net.perform act = net) (noRound : net.roundOf? act = none)
  | round {id : DeviceId} {node : Node} {outcome : RoundOutcome}
    (found : net.nodes.find? id = some node)
    (record : net.roundOf? act = some ⟨net, id, node, outcome⟩)
    (result : net.RoundResult id node (net.perform act) outcome)
  | joined {id : DeviceId} {program : Expr} {pacing : Pacing} (which : act = .join id program pacing)
  | dropped {id : DeviceId} (which : act = .drop id)
  | rearranged (noRound : net.roundOf? act = none) (rearranged : net.Rearranged (net.perform act))

namespace Orderly

theorem act (h : net.Orderly) (act : Act) : net.ActResult act := by
  cases act with
  | step id =>
      cases hnode : net.nodes.find? id with
      | none => exact .unknown (step_unknown hnode) (by rw [roundOf?, hnode, Option.map_none])
      | some node =>
          have hstep : net.perform (.step id) = (net.stepNode id node).1 := by
            rw [perform, Network.step, hnode]
          have hresult := net.stepNode_result id (h.linkUp id node hnode)
          rw [← hstep] at hresult
          exact .round hnode (by rw [roundOf?, hnode, Option.map_some]) hresult
  | join id program pacing => exact .joined rfl
  | drop id => exact .dropped rfl
  | _ => exact .rearranged rfl (perform_rearranges net rfl)

theorem perform (h : net.Orderly) (act : Act) : (net.perform act).Orderly := by
  cases h.act act with
  | unknown hsame _ =>
      rw [hsame]
      exact h
  | round hnode _ hresult => exact h.round hnode hresult
  | joined hwhich =>
      rw [hwhich]
      exact h.join _ _ _
  | dropped hwhich =>
      rw [hwhich]
      exact h.drop _
  | rearranged _ hrearranged =>
      refine h.change hrearranged.plug hrearranged.alike (hrearranged.each h.window) ?_
      exact fun hdirect => hrearranged.each (h.unqueued hdirect)

theorem run (h : net.Orderly) (acts : List Act) : (net.run acts).Orderly :=
  run_invariant (fun _ => True) (fun net _ => net.Orderly) h
    (fun _ _ act hgood _ => hgood.perform act) fun _ _ => trivial

/-- No act changes how a hub delivers or how long its tables remember. -/
theorem perform_hub (h : net.Orderly) (act : Act) :
    (net.perform act).hub.delivery = net.hub.delivery ∧
      (net.perform act).hub.staleness = net.hub.staleness := by
  cases h.act act with
  | unknown hsame _ =>
      rw [hsame]
      exact ⟨rfl, rfl⟩
  | round _ _ hresult => exact ⟨hresult.alike.delivery, hresult.alike.staleness⟩
  | @joined id program pacing hwhich =>
      have halike := net.alike_perform_join id program pacing
      rw [hwhich]
      exact ⟨halike.delivery, halike.staleness⟩
  | @dropped id hwhich =>
      rw [hwhich]
      rcases net.perform_drop id with heq | ⟨endpoint, hhub, -, -⟩
      · rw [heq]
        exact ⟨rfl, rfl⟩
      · have halike := Hub.Alike.drop net.hub endpoint
        rw [hhub]
        exact ⟨halike.delivery, halike.staleness⟩
  | rearranged _ hrearranged => exact ⟨hrearranged.alike.delivery, hrearranged.alike.staleness⟩

theorem run_hub (h : net.Orderly) (acts : List Act) :
    (net.run acts).hub.delivery = net.hub.delivery ∧
      (net.run acts).hub.staleness = net.hub.staleness := by
  induction acts using List.reverseRecOn with
  | nil => exact ⟨rfl, rfl⟩
  | append_singleton acts act ih =>
      obtain ⟨hdelivery, hstaleness⟩ := (h.run acts).perform_hub act
      rw [run_concat, hdelivery, hstaleness]
      exact ih

end Orderly

end Network

end FieldCalculus
