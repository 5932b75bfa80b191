import FieldCalculus.Proofs.Deliveries

/-!
The life of one device, seen by itself. From its start on it does rounds, each in a setting of
its own, and between two rounds it may be stopped. What a network does in a step of the device
is one such round, in the setting that the network makes for it.
-/

namespace FieldCalculus

namespace PhaseTracker

variable {t : PhaseTracker}

/-- No round is going on. -/
def AtRest (t : PhaseTracker) : Prop := t.phase = .idle ∨ t.phase = .stopped

namespace AtRest

/-- A round that is given up leads back to the phase that it began in. -/
theorem phase_abort (h : t.AtRest) : t.advance.advance.abort.phase = t.phase := by
  rcases h with h | h <;> simp [advance, enter, abort, Phase.next, h]

theorem phase_cycle (h : t.AtRest) : t.advance.advance.advance.advance.phase = t.phase := by
  rcases h with h | h <;> simp [advance, enter, Phase.next, h]

theorem stop (h : t.AtRest) : t.stop.AtRest := by
  rcases h with h | h <;> simp [AtRest, PhaseTracker.stop, enter, h]

end AtRest

end PhaseTracker

/-- What a device meets with in one round. -/
structure Setting where
  sensors : Sensors
  snapshot : NeighborSnapshot
  now : Nat
  /-- Whether the exchange takes what it is offered. -/
  accepts : Bool

/-- What happens to a device in the course of time. -/
inductive Turn where
  | round (setting : Setting)
  /-- A request to stop. -/
  | stop

namespace Device

variable {d : Device} {s : Setting}

/-! ## One round -/

def inputs (d : Device) (s : Setting) : RoundInputs := ⟨d.id, s.sensors, d.state, s.snapshot⟩

/-- Whether a round with this export offers it. -/
def sends (d : Device) (exported : Export) : Bool := d.isChanged exported || d.isDue

/-- A whole round, from the attempt to its conclusion. -/
def round (d : Device) (s : Setting) : Device × RoundOutcome :=
  match d.attempt s.sensors s.snapshot s.now with
  | (next, .error failure) => (next, .error failure)
  | (next, .ok attempt) =>
    ((next.conclude attempt s.accepts).1, .ok (next.conclude attempt s.accepts).2)

/-- The message that a round hands to the exchange, if any. -/
def offer (d : Device) (s : Setting) : Option Message :=
  match (d.attempt s.sensors s.snapshot s.now).2 with
  | .ok attempt => attempt.offer
  | .error _ => none

theorem round_of_error {error : EvalError} (h : evaluate d.program (d.inputs s) = .error error) :
    d.round s = ({ d with rounds := d.rounds + 1, phases := d.phases.advance.advance.abort },
      .error ⟨d.id, d.rounds, error⟩) := by
  rw [round, attempt_of_error h]

theorem offer_of_error {error : EvalError} (h : evaluate d.program (d.inputs s) = .error error) :
    d.offer s = none := by
  rw [offer, attempt_of_error h]

theorem round_of_ok {result : Evaluation} (h : evaluate d.program (d.inputs s) = .ok result) :
    d.round s = ({ d with
        rounds := d.rounds + 1
        phases := d.phases.advance.advance.advance.advance
        state := d.state.absorb result.exported
        lastExport :=
          if d.sends result.exported && s.accepts then some result.exported else d.lastExport
        quietRounds :=
          if !d.sends result.exported then d.quietRounds + 1
          else if s.accepts then 0 else d.quietRounds },
      .ok ⟨d.id, d.rounds, result.value, result.exported, s.snapshot.size,
        d.sends result.exported && s.accepts⟩) := by
  rw [round, attempt_of_ok h]
  unfold sends conclude
  cases d.isChanged result.exported || d.isDue <;> cases s.accepts <;> rfl

theorem offer_of_ok {result : Evaluation} (h : evaluate d.program (d.inputs s) = .ok result) :
    d.offer s = if d.sends result.exported then
      some ⟨d.id, UInt64.ofNat d.rounds, .ofMillis s.now, result.exported⟩ else none := by
  rw [offer, attempt_of_ok h]
  rfl

/-- A round that fails has a failed evaluation behind it. -/
theorem evaluate_of_failed {failure : RoundFailure} (h : (d.round s).2 = .error failure) :
    evaluate d.program (d.inputs s) = .error failure.error := by
  cases houtcome : evaluate d.program (d.inputs s) with
  | error error =>
      rw [round_of_error houtcome] at h
      cases h
      rfl
  | ok result =>
      rw [round_of_ok houtcome] at h
      cases h

/-- A round that succeeds has the evaluation of its export behind it. -/
theorem evaluated_of_report {report : RoundReport} (h : (d.round s).2 = .ok report) :
    ∃ result, evaluate d.program (d.inputs s) = .ok result ∧ result.exported = report.exported ∧
      report.round = d.rounds ∧ report.published = (d.sends report.exported && s.accepts) := by
  cases houtcome : evaluate d.program (d.inputs s) with
  | error error =>
      rw [round_of_error houtcome] at h
      cases h
  | ok result =>
      rw [round_of_ok houtcome] at h
      cases h
      exact ⟨result, rfl, rfl, rfl, rfl⟩

/-! ## Many rounds -/

def take (d : Device) : Turn → Device
  | .round s => (d.round s).1
  | .stop => { d with phases := d.phases.stop }

def run (d : Device) (turns : List Turn) : Device := turns.foldl take d

/-- What the round of a turn comes to. -/
def outcomeOf? (d : Device) : Turn → Option RoundOutcome
  | .round s => some (d.round s).2
  | .stop => none

def outcomes (d : Device) : List Turn → List RoundOutcome
  | [] => []
  | turn :: rest => (d.outcomeOf? turn).toList ++ (d.take turn).outcomes rest

theorem run_concat (d : Device) (turns : List Turn) (turn : Turn) :
    d.run (turns ++ [turn]) = (d.run turns).take turn :=
  List.foldl_append

theorem outcomes_append (d : Device) (first second : List Turn) :
    d.outcomes (first ++ second) = d.outcomes first ++ (d.run first).outcomes second := by
  induction first generalizing d with
  | nil => rfl
  | cons turn rest ih =>
      rw [List.cons_append, outcomes, outcomes, ih, List.append_assoc]
      rfl

theorem outcomes_concat (d : Device) (turns : List Turn) (turn : Turn) :
    d.outcomes (turns ++ [turn]) = d.outcomes turns ++ ((d.run turns).outcomeOf? turn).toList := by
  rw [outcomes_append, outcomes, outcomes, List.append_nil]

/-- What holds of a device and of the outcomes behind it after one more turn holds after any
number of turns. -/
theorem run_invariant (good : Device → List RoundOutcome → Prop) (hbegin : good d [])
    (hturn : ∀ d past turn, good d past → good (d.take turn) (past ++ (d.outcomeOf? turn).toList))
    (turns : List Turn) : good (d.run turns) (d.outcomes turns) := by
  induction turns using List.reverseRecOn with
  | nil => exact hbegin
  | append_singleton turns turn ih =>
      rw [run_concat, outcomes_concat]
      exact hturn _ _ turn ih

theorem same_take (d : Device) (turn : Turn) : d.Same (d.take turn) := by
  cases turn with
  | stop => exact ⟨rfl, rfl, rfl⟩
  | round s =>
      unfold Device.take
      cases houtcome : evaluate d.program (d.inputs s) with
      | error error =>
          dsimp only
          rw [round_of_error houtcome]
          exact ⟨rfl, rfl, rfl⟩
      | ok result =>
          dsimp only
          rw [round_of_ok houtcome]
          exact ⟨rfl, rfl, rfl⟩

theorem pacing_run (d : Device) (turns : List Turn) : (d.run turns).pacing = d.pacing := by
  induction turns using List.reverseRecOn with
  | nil => rfl
  | append_singleton turns turn ih => rw [run_concat, ((d.run turns).same_take turn).pacing, ih]

/-- Some rounds, and perhaps a stop, lead from its start to the device. -/
def Reachable (d : Device) : Prop :=
  ∃ id program pacing turns, d = (start id program pacing).run turns

theorem Reachable.take (h : d.Reachable) (turn : Turn) : (d.take turn).Reachable := by
  obtain ⟨id, program, pacing, turns, rfl⟩ := h
  exact ⟨id, program, pacing, turns ++ [turn], (run_concat _ turns turn).symm⟩

theorem atRest_take (h : d.phases.AtRest) (turn : Turn) : (d.take turn).phases.AtRest := by
  cases turn with
  | stop => exact h.stop
  | round s =>
      change (d.round s).1.phases.AtRest
      unfold PhaseTracker.AtRest
      cases houtcome : evaluate d.program (d.inputs s) with
      | error error =>
          rw [round_of_error houtcome, h.phase_abort]
          exact h
      | ok result =>
          rw [round_of_ok houtcome, h.phase_cycle]
          exact h

theorem Reachable.atRest (h : d.Reachable) : d.phases.AtRest := by
  obtain ⟨id, program, pacing, turns, rfl⟩ := h
  exact run_invariant (fun d _ => d.phases.AtRest) (Or.inl rfl)
    (fun d _ turn hd => d.atRest_take hd turn) turns

end Device

/-! ## The exchange -/

namespace Hub

variable {hub : Hub}

/-- The fault that handing a message to a recipient would meet. -/
def closed? (hub : Hub) (recipient : DeviceId) : Option ExchangeFault :=
  match hub.delivery, hub.registry.find? recipient with
  | .queued, some endpoint =>
    if (hub.endpoints.find? endpoint).any Endpoint.held then none else some (.closed recipient)
  | _, _ => none

theorem any_held_update {change : Endpoint → Endpoint} (hheld : ∀ e, (change e).held = e.held)
    (endpoint number : Nat) :
    ((hub.update endpoint change).endpoints.find? number).any Endpoint.held =
      (hub.endpoints.find? number).any Endpoint.held := by
  rw [find?_update]
  split
  · rename_i heq
    rw [heq, Option.any_map]
    exact congrArg (Option.any · _) (funext hheld)
  · rfl

theorem closed?_update {change : Endpoint → Endpoint} (hheld : ∀ e, (change e).held = e.held)
    (endpoint : Nat) (recipient : DeviceId) :
    (hub.update endpoint change).closed? recipient = hub.closed? recipient := by
  have hregistry : (hub.update endpoint change).registry = hub.registry := rfl
  have hdelivery : (hub.update endpoint change).delivery = hub.delivery := rfl
  unfold closed?
  rw [hregistry, hdelivery]
  cases hub.delivery <;> cases hub.registry.find? recipient <;> simp [any_held_update hheld]

theorem deliver_fault (hub : Hub) (message : Message) (now : Nat) (recipient : DeviceId) :
    (∃ fault, hub.closed? recipient = some fault ∧
      hub.deliver message now recipient = .error fault) ∨
    ∃ next stored, hub.closed? recipient = none ∧
      hub.deliver message now recipient = .ok (next, stored) := by
  unfold closed? deliver
  cases hub.registry.find? recipient with
  | none => cases hub.delivery <;> exact Or.inr ⟨_, _, rfl, rfl⟩
  | some endpoint =>
      cases hub.delivery with
      | direct => exact Or.inr ⟨_, _, rfl, rfl⟩
      | queued =>
          dsimp only
          split
          · exact Or.inr ⟨_, _, rfl, rfl⟩
          · exact Or.inl ⟨_, rfl, rfl⟩

/-- Whether a publication meets a fault does not depend on the message. -/
theorem publish_fault (hub : Hub) (message : Message) (now : Nat) (recipients : List DeviceId) :
    (hub.publish message now recipients).fault = recipients.findSome? hub.closed? := by
  induction recipients generalizing hub with
  | nil => rfl
  | cons recipient rest ih =>
      rw [publish, List.findSome?_cons]
      rcases hub.deliver_fault message now recipient with
        ⟨fault, hclosed, hdeliver⟩ | ⟨next, stored, hclosed, hdeliver⟩
      · rw [hdeliver, hclosed]
      · have hsame : next.closed? = hub.closed? := by
          rcases deliver_cases hdeliver with rfl | ⟨endpoint, -, rfl⟩
          · rfl
          · funext other
            exact closed?_update (fun e => by cases hub.delivery <;> rfl) endpoint other
        rw [hdeliver, hclosed]
        dsimp only
        rw [ih, hsame]

end Hub

/-- Counts a round: the messages that came into tables, the entries that were dropped, whether an
offer was made, and what the round came to. -/
def Counters.count (c : Counters) (received evicted : Nat) (offered : Bool) :
    RoundOutcome → Counters
  | .error failure => (c.addTraffic received evicted).addFailure failure.error.fault
  | .ok report => (c.addTraffic received evicted).addRound offered report.published

namespace Network

variable {net : Network} {id : DeviceId} {node : Node}

/-- Whether the exchange takes what a device offers. -/
def accepts (net : Network) (node : Node) : Bool :=
  !node.linkDown && ((net.neighborsOf node).toList.findSome? net.hub.closed?).isNone

/-- A direct hub takes whatever its devices offer. -/
theorem Orderly.accepts_direct (h : net.Orderly) (hdirect : net.hub.delivery = .direct)
    (hnode : net.nodes.find? id = some node) : net.accepts node = true := by
  have hopen : (net.neighborsOf node).toList.findSome? net.hub.closed? = none := by
    refine List.findSome?_eq_none_iff.mpr ?_
    intro recipient _
    rw [Hub.closed?, hdirect]
  rw [Network.accepts, h.linkUp id node hnode, hopen]
  rfl

def settingOf (net : Network) (node : Node) : Setting :=
  ⟨node.sensors.sensors, net.heard node, net.now, net.accepts node⟩

/-- The hub once it has dealt with what a device offers, if it offers anything. -/
def exchanged (net : Network) (node : Node) : Hub :=
  ((net.swept node.endpoint).offer node (net.neighborsOf node) (net.offered node)).1.hub

theorem offered_eq (net : Network) (node : Node) :
    net.offered node = node.device.offer (net.settingOf node) := rfl

theorem closed?_swept (net : Network) (endpoint : Nat) :
    (net.swept endpoint).hub.closed? = net.hub.closed? := by
  funext recipient
  change ((net.hub.update endpoint _).update endpoint _).closed? recipient = _
  rw [Hub.closed?_update, Hub.closed?_update]
  all_goals exact fun _ => rfl

theorem offer_accepted (net : Network) (node : Node) (message : Message) :
    ((net.swept node.endpoint).offer node (net.neighborsOf node) (some message)).2 =
      net.accepts node := by
  unfold offer accepts
  cases hlink : node.linkDown with
  | true => rfl
  | false =>
      rw [← closed?_swept net node.endpoint, Bool.not_false, Bool.true_and]
      exact congrArg Option.isNone (Hub.publish_fault _ message net.now _)

/-- How many messages come into tables in a round of a device: those that waited for it, and those
that its own offer puts into the tables of others. -/
def intake (net : Network) (node : Node) : Nat :=
  net.hub.waiting node.endpoint +
    match net.offered node with
    | none => 0
    | some message =>
      if node.linkDown then 0
      else ((net.swept node.endpoint).hub.publish message net.now
        (net.neighborsOf node).toList).stored

/-- How many entries of its table a device drops when it begins a round. -/
def staleEntries (net : Network) (node : Node) : Nat :=
  ((net.collect node.endpoint).hub.table node.endpoint).staleCount net.now

/-- The counters after a round of a device. -/
def counted (net : Network) (node : Node) : Counters :=
  net.counters.count (net.intake node) (net.staleEntries node) (net.offered node).isSome
    (node.device.round (net.settingOf node)).2

theorem offer_frame (net : Network) (node : Node) (recipients : DeviceSet)
    (offer : Option Message) : (net.offer node recipients offer).1 =
      { net with
        hub := (net.offer node recipients offer).1.hub
        counters := net.counters.addTraffic (match offer with
          | none => 0
          | some message =>
            if node.linkDown then 0
            else (net.hub.publish message net.now recipients.toList).stored) 0 } := by
  cases offer with
  | none => rfl
  | some message =>
      unfold Network.offer
      dsimp only
      cases node.linkDown <;> rfl

/-- A step of a network is a round of the device in the setting of the network, together with
what the exchange makes of its offer. -/
theorem stepNode_eq (net : Network) (id : DeviceId) (node : Node) :
    net.stepNode id node =
      ({ net with
          hub := net.exchanged node
          nodes := net.nodes.insert id
            { node with device := (node.device.round (net.settingOf node)).1 }
          recorder := net.recorder.record (node.device.round (net.settingOf node)).2
          counters := net.counted node },
        (node.device.round (net.settingOf node)).2) := by
  have hstep : net.stepNode id node =
      match node.device.attempt node.sensors.sensors (net.heard node) net.now with
      | (device, .error failure) =>
        ({ net.swept node.endpoint with
          nodes := net.nodes.insert id { node with device := device }
          recorder := net.recorder.record (.error failure)
          counters := (net.swept node.endpoint).counters.addFailure failure.error.fault },
          .error failure)
      | (device, .ok attempt) =>
        let sent := (net.swept node.endpoint).offer node (net.neighborsOf node) attempt.offer
        ({ sent.1 with
          nodes := sent.1.nodes.insert id
            { node with device := (device.conclude attempt sent.2).1 }
          recorder := sent.1.recorder.record (.ok (device.conclude attempt sent.2).2)
          counters := sent.1.counters.addRound attempt.offer.isSome
            (device.conclude attempt sent.2).2.published },
          .ok (device.conclude attempt sent.2).2) := rfl
  have hround : node.device.round (net.settingOf node) =
      match node.device.attempt node.sensors.sensors (net.heard node) net.now with
      | (next, .error failure) => (next, .error failure)
      | (next, .ok attempt) => ((next.conclude attempt (net.accepts node)).1,
          .ok (next.conclude attempt (net.accepts node)).2) := rfl
  have hoffered : net.offered node =
      match (node.device.attempt node.sensors.sensors (net.heard node) net.now).2 with
      | .ok attempt => attempt.offer
      | .error _ => none := rfl
  have htraffic : ∀ stored, (net.swept node.endpoint).counters.addTraffic stored 0 =
      net.counters.addTraffic (net.hub.waiting node.endpoint + stored) (net.staleEntries node) := by
    intro stored
    simp [swept, collect, evict, staleEntries, Counters.addTraffic, Nat.add_assoc]
  rw [hstep, counted, intake, exchanged, hround, hoffered]
  rcases node.device.attempt node.sensors.sensors (net.heard node) net.now with
    ⟨device, failure | attempt⟩
  · dsimp only
    rw [Counters.count, ← htraffic]
    rfl
  · dsimp only
    have hconclude : device.conclude attempt ((net.swept node.endpoint).offer node
        (net.neighborsOf node) attempt.offer).2 = device.conclude attempt (net.accepts node) := by
      cases hoffer : attempt.offer with
      | none => simp [Device.conclude, hoffer]
      | some message => rw [offer_accepted]
    rw [hconclude, Counters.count, ← htraffic, offer_frame]
    rfl

theorem stepNode_round (net : Network) (id : DeviceId) (node : Node) :
    ∃ counters, net.stepNode id node =
      ({ net with
          hub := net.exchanged node
          nodes := net.nodes.insert id
            { node with device := (node.device.round (net.settingOf node)).1 }
          recorder := net.recorder.record (node.device.round (net.settingOf node)).2
          counters := counters },
        (node.device.round (net.settingOf node)).2) :=
  ⟨_, net.stepNode_eq id node⟩

theorem outcome_stepNode (net : Network) (id : DeviceId) (node : Node) :
    (net.stepNode id node).2 = (node.device.round (net.settingOf node)).2 := by
  rw [stepNode_eq]

theorem step_eq (hnode : net.nodes.find? id = some node) :
    net.step id =
      ({ net with
          hub := net.exchanged node
          nodes := net.nodes.insert id
            { node with device := (node.device.round (net.settingOf node)).1 }
          recorder := net.recorder.record (node.device.round (net.settingOf node)).2
          counters := net.counted node },
        some (node.device.round (net.settingOf node)).2) := by
  rw [Network.step, hnode]
  dsimp only
  rw [stepNode_eq]

/-! ## Devices of a network -/

/-- An act leaves a device that its own rounds have made, for every id. -/
theorem Orderly.reachable_perform (h : net.Orderly)
    (hbefore : ∀ id node, net.nodes.find? id = some node → node.device.Reachable) (act : Act)
    (hnode : (net.perform act).nodes.find? id = some node) : node.device.Reachable := by
  by_cases hown : ∃ r, net.roundOf? act = some r ∧ r.id = id
  · obtain ⟨r, hrecord, rfl⟩ := hown
    obtain ⟨other, before, rfl, hother, rfl⟩ := exists_of_roundOf? hrecord
    obtain ⟨counters, hround⟩ := net.stepNode_round other before
    rw [Network.perform, Network.step, hother] at hnode
    dsimp only at hnode
    rw [hround] at hnode
    dsimp only at hnode
    rw [Dict.find?_insert, if_pos rfl, Option.some.injEq] at hnode
    rw [← hnode]
    exact (hbefore other before hother).take (.round (net.settingOf before))
  · have hother : ∀ r, net.roundOf? act = some r → r.id ≠ id :=
      fun r hrecord hid => hown ⟨r, hrecord, hid⟩
    rcases h.device_perform hother hnode with ⟨program, pacing, -, hstart⟩ | ⟨before, hfound, heq⟩
    · exact ⟨id, program, pacing, [], hstart⟩
    · rw [← heq]
      exact hbefore id before hfound

/-- Whatever happens to a network, its devices are those that their own rounds have made. -/
theorem reachable_run (program : Expr) (pacing : Pacing) (delivery : Delivery)
    (topology : Topology) (neighborhood : Neighborhood) (acts : List Act)
    (hnode : ((empty program pacing delivery topology neighborhood).run acts).nodes.find? id =
      some node) : node.device.Reachable := by
  have horderly := Orderly.empty program pacing delivery topology neighborhood
  induction acts using List.reverseRecOn generalizing id node with
  | nil => cases hnode
  | append_singleton acts act ih =>
      rw [run_concat] at hnode
      exact (horderly.run acts).reachable_perform (fun _ _ hfound => ih hfound) act hnode

end Network

end FieldCalculus
