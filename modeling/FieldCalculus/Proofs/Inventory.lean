import FieldCalculus.Proofs.Lifetime
import FieldCalculus.Proofs.Reach

/-!
Every value that a network holds. Values stand in the readings and the states of devices, in the
exports that they sent last, and in the messages that the hub keeps. A property that evaluation
passes on from the values a round is given to those it leaves behind is kept by every run.
-/

namespace FieldCalculus

variable {fit : Expr → Prop} {good : Value → Prop}

/-- All values that a round leaves behind have the property. -/
structure Evaluation.All (good : Value → Prop) (result : Evaluation) : Prop where
  value : good result.value
  exported : result.exported.All good

/-- Programs that are fit pass the property on from what a round is given to what it leaves. -/
def PassesOn (fit : Expr → Prop) (good : Value → Prop) : Prop :=
  ∀ program inputs result, fit program → inputs.All good →
    evaluate program inputs = .ok result → result.All good

/-! ## Devices -/

structure Device.All (fit : Expr → Prop) (good : Value → Prop) (d : Device) : Prop where
  program : fit d.program
  state : d.state.All good
  lastExport : ∀ exported, d.lastExport = some exported → exported.All good

structure Setting.All (good : Value → Prop) (s : Setting) : Prop where
  sensors : s.sensors.All good
  snapshot : ∀ id exported, s.snapshot.find? id = some exported → exported.All good

/-- What a round reports has the property. -/
def RoundOutcome.All (good : Value → Prop) (outcome : RoundOutcome) : Prop :=
  ∀ report, outcome = .ok report → good report.value ∧ report.exported.All good

namespace Device.All

variable {d : Device} {s : Setting}

theorem start (id : DeviceId) {program : Expr} (hprogram : fit program) (pacing : Pacing) :
    (Device.start id program pacing).All fit good := by
  refine ⟨hprogram, ?_, ?_⟩
  · intro path v hv
    cases hv
  · intro exported hexported
    cases hexported

theorem inputs (h : d.All fit good) (hs : s.All good) : (d.inputs s).All good :=
  ⟨hs.sensors, h.state, hs.snapshot⟩

/-- A round keeps what evaluation passes on, in the device, in what it reports and in what it
offers. -/
theorem round (hpasses : PassesOn fit good) (h : d.All fit good) (hs : s.All good) :
    (d.round s).1.All fit good ∧ (d.round s).2.All good ∧
      ∀ message, d.offer s = some message → message.exported.All good := by
  cases houtcome : evaluate d.program (d.inputs s) with
  | error error =>
      rw [round_of_error houtcome, offer_of_error houtcome]
      refine ⟨⟨h.program, h.state, h.lastExport⟩, ?_, ?_⟩
      · intro report hreport
        cases hreport
      · intro message hmessage
        cases hmessage
  | ok result =>
      have hresult := hpasses d.program (d.inputs s) result h.program (h.inputs hs) houtcome
      rw [round_of_ok houtcome, offer_of_ok houtcome]
      refine ⟨⟨h.program, h.state.absorb hresult.exported, ?_⟩, ?_, ?_⟩
      · intro exported hexported
        dsimp only at hexported
        split at hexported
        · cases hexported
          exact hresult.exported
        · exact h.lastExport exported hexported
      · rintro report ⟨⟩
        exact ⟨hresult.value, hresult.exported⟩
      · intro message hmessage
        split at hmessage
        · cases hmessage
          exact hresult.exported
        · cases hmessage

end Device.All

/-! ## The hub -/

structure Endpoint.All (good : Value → Prop) (e : Endpoint) : Prop where
  queue : ∀ message ∈ e.queue, message.exported.All good
  table : ∀ sender arrival, e.table.entries.find? sender = some arrival →
    arrival.message.exported.All good

namespace Endpoint.All

variable {e : Endpoint}

theorem opened (id : DeviceId) (staleness : Nat) (held : Bool) :
    (Endpoint.mk id (.empty staleness) [] held).All good := by
  refine ⟨?_, ?_⟩
  · intro message hmessage
    cases hmessage
  · intro sender arrival harrival
    cases harrival

theorem collect (h : e.All good) (now : Nat) :
    { e with table := e.table.storeAll e.queue now, queue := [] }.All good := by
  refine ⟨?_, ?_⟩
  · intro message hmessage
    cases hmessage
  · intro sender arrival harrival
    rcases NeighborTable.mem_or_find?_storeAll harrival with ⟨hmem, -⟩ | hold
    · exact h.queue _ hmem
    · exact h.table sender arrival hold

theorem evict (h : e.All good) (now : Nat) :
    { e with table := e.table.evictStale now }.All good := by
  refine ⟨h.queue, ?_⟩
  intro sender arrival harrival
  rw [NeighborTable.find?_evictStale] at harrival
  exact h.table sender arrival (Option.filter_eq_some_iff.mp harrival).1

theorem reach (h : e.All good) {message : Message} (hmessage : message.exported.All good)
    (delivery : Delivery) (now : Nat) : (e.reach delivery message now).All good := by
  cases delivery with
  | direct =>
      refine ⟨h.queue, ?_⟩
      intro sender arrival harrival
      rw [Endpoint.reach, NeighborTable.find?_store] at harrival
      split at harrival
      · cases harrival
        exact hmessage
      · exact h.table sender arrival harrival
  | queued =>
      refine ⟨?_, h.table⟩
      intro other hother
      rcases List.mem_append.mp hother with hold | hnew
      · exact h.queue other hold
      · rw [List.mem_singleton.mp hnew]
        exact hmessage

end Endpoint.All

/-! ## The network -/

namespace Network

variable {net : Network} {id : DeviceId} {node : Node}

structure All (fit : Expr → Prop) (good : Value → Prop) (net : Network) : Prop where
  devices : ∀ id node, net.nodes.find? id = some node →
    node.device.All fit good ∧ node.sensors.sensors.All good
  endpoints : net.hub.Each fun _ e => e.All good

/-- What an act brings into a network is fit and has the property. -/
def Act.Admits (fit : Expr → Prop) (good : Value → Prop) : Act → Prop
  | .join _ program _ => fit program
  | .changeSensors _ change => ∀ t : SensorTable, t.sensors.All good → (change t).sensors.All good
  | _ => True

namespace All

theorem empty (program : Expr) (pacing : Pacing) (delivery : Delivery) (topology : Topology)
    (neighborhood : Neighborhood) :
    (Network.empty program pacing delivery topology neighborhood).All fit good := by
  refine ⟨?_, ?_⟩
  · intro id node hnode
    cases hnode
  · intro number e he
    cases he

theorem swept (h : net.All fit good) (endpoint : Nat) :
    (net.swept endpoint).hub.Each fun _ e => e.All good :=
  each_swept h.endpoints (fun _ he => he.collect net.now) fun _ he => he.evict net.now

theorem setting (h : net.All fit good) (hnode : net.nodes.find? id = some node) :
    (net.settingOf node).All good := by
  refine ⟨(h.devices id node hnode).2, ?_⟩
  intro sender exported hexported
  obtain ⟨-, arrival, hfresh, rfl⟩ := NeighborTable.fresh_of_find?_snapshot hexported
  have hfound := (Option.filter_eq_some_iff.mp hfresh).1
  unfold inbox Hub.table at hfound
  split at hfound
  · rename_i e he
    exact (h.swept node.endpoint _ e he).table sender arrival hfound
  · cases hfound

theorem exchanged (h : net.All fit good)
    (hoffer : ∀ message, net.offered node = some message → message.exported.All good) :
    (net.exchanged node).Each fun _ e => e.All good := by
  unfold Network.exchanged
  cases hoffered : net.offered node with
  | none => exact h.swept node.endpoint
  | some message =>
      unfold offer
      dsimp only
      split
      · exact h.swept node.endpoint
      · exact (h.swept node.endpoint).publish
          (fun _ _ he => he.reach (hoffer message hoffered) _ _) _

theorem step (hpasses : PassesOn fit good) (h : net.All fit good)
    (hnode : net.nodes.find? id = some node) :
    (net.stepNode id node).1.All fit good ∧ (net.stepNode id node).2.All good := by
  obtain ⟨hdevice, hsensors⟩ := h.devices id node hnode
  obtain ⟨hround, hreport, hoffer⟩ := hdevice.round hpasses (h.setting hnode)
  obtain ⟨counters, hstep⟩ := net.stepNode_round id node
  rw [hstep]
  refine ⟨⟨?_, h.exchanged hoffer⟩, hreport⟩
  intro other found hfound
  rw [Dict.find?_insert] at hfound
  split at hfound
  · cases hfound
    exact ⟨hround, hsensors⟩
  · exact h.devices other found hfound

theorem join (h : net.All fit good) {program : Expr} (hprogram : fit program) (id : DeviceId)
    (pacing : Pacing) : (net.perform (.join id program pacing)).All fit good := by
  refine ⟨?_, each_perform_join h.endpoints (.opened _ _ _) (fun _ _ he => ⟨he.queue, he.table⟩)
    program pacing⟩
  intro other node hnode
  rw [find?_perform_join] at hnode
  split at hnode
  · cases hnode
    refine ⟨.start id hprogram pacing, ?_, ?_⟩
    · intro name v hv
      cases hv
    · intro name neighbor v hv
      cases hv
  · exact h.devices other node hnode

theorem drop (h : net.All fit good) (id : DeviceId) : (net.perform (.drop id)).All fit good := by
  rcases net.perform_drop id with hsame | ⟨endpoint, hhub, hnodes, -⟩
  · rw [hsame]
    exact h
  · refine ⟨?_, ?_⟩
    · intro other node hnode
      rw [hnodes, Dict.find?_erase] at hnode
      split at hnode
      · cases hnode
      · exact h.devices other node hnode
    · rw [hhub]
      exact h.endpoints.drop (fun _ _ he => ⟨he.queue, he.table⟩) endpoint

/-- A change to a node that keeps its device and what its sensors read. -/
theorem updateNode (h : net.All fit good) (id : DeviceId) {change : Node → Node}
    (hdevice : ∀ n, (change n).device = n.device)
    (hsensors : ∀ n : Node, n.sensors.sensors.All good → (change n).sensors.sensors.All good) :
    (net.updateNode id change).All fit good := by
  refine ⟨?_, h.endpoints⟩
  intro other node hnode
  change (net.nodes.modify id change).find? other = some node at hnode
  rw [Dict.find?_modify] at hnode
  split at hnode
  · obtain ⟨before, hbefore, rfl⟩ := Option.map_eq_some_iff.mp hnode
    obtain ⟨hall, hreads⟩ := h.devices id before hbefore
    rw [hdevice]
    exact ⟨hall, hsensors before hreads⟩
  · exact h.devices other node hnode

theorem perform (hpasses : PassesOn fit good) (h : net.All fit good) {act : Act}
    (hact : act.Admits fit good) : (net.perform act).All fit good := by
  cases act with
  | step id =>
      cases hnode : net.nodes.find? id with
      | none =>
          rw [Network.perform, step_unknown hnode]
          exact h
      | some node =>
          rw [Network.perform, Network.step, hnode]
          exact (h.step hpasses hnode).1
  | join id program pacing => exact h.join hact id pacing
  | drop id => exact h.drop id
  | changeSensors id change =>
      exact h.updateNode id (fun _ => rfl) fun n hreads => hact n.sensors hreads
  | observe id peer => exact h.updateNode id (fun _ => rfl) fun _ hreads => hreads
  | advance _ | leave _ | addToTopology _ | link _ _ | unlink _ _ => exact ⟨h.devices, h.endpoints⟩

end All

/-- The round began in a network whose values all have the property. -/
structure RoundRecord.All (fit : Expr → Prop) (good : Value → Prop) (r : RoundRecord) : Prop where
  before : r.before.All fit good
  found : r.before.nodes.find? r.id = some r.node
  outcome : r.outcome = (r.node.device.round (r.before.settingOf r.node)).2

namespace All

/-- A property that evaluation passes on has been kept after every run, and by every round of
it. -/
theorem run (hpasses : PassesOn fit good) (h : net.All fit good) {acts : List Act}
    (hacts : ∀ act ∈ acts, act.Admits fit good) :
    (net.run acts).All fit good ∧ ∀ r ∈ net.history acts, r.All fit good := by
  refine run_invariant (Act.Admits fit good)
    (fun net past => net.All fit good ∧ ∀ r ∈ past, r.All fit good) ⟨h, by simp⟩ ?_ hacts
  rintro net past act ⟨hnet, hpast⟩ hact
  refine ⟨hnet.perform hpasses hact, ?_⟩
  intro r hr
  rcases List.mem_append.mp hr with hearlier | hlast
  · exact hpast r hearlier
  · obtain ⟨id, node, -, hnode, rfl⟩ := exists_of_roundOf? (Option.mem_toList.mp hlast)
    exact ⟨hnet, hnode, net.outcome_stepNode id node⟩

end All

namespace RoundRecord.All

variable {r : RoundRecord}

/-- What the round was given. -/
theorem inputs (h : r.All fit good) : fit r.node.device.program ∧
    (r.node.device.inputs (r.before.settingOf r.node)).All good := by
  obtain ⟨hdevice, -⟩ := h.before.devices _ _ h.found
  exact ⟨hdevice.program, hdevice.inputs (h.before.setting h.found)⟩

/-- A round that failed did so because its evaluation did. -/
theorem evaluated_of_error (h : r.All fit good) {failure : RoundFailure}
    (hfailure : r.outcome = .error failure) :
    evaluate r.node.device.program (r.node.device.inputs (r.before.settingOf r.node)) =
      .error failure.error :=
  Device.evaluate_of_failed (h.outcome.symm.trans hfailure)

/-- What a round that succeeded reported has the property. -/
theorem reported (hpasses : PassesOn fit good) (h : r.All fit good) {report : RoundReport}
    (hreport : r.outcome = .ok report) : good report.value ∧ report.exported.All good := by
  obtain ⟨hdevice, -⟩ := h.before.devices _ _ h.found
  obtain ⟨-, hround, -⟩ := hdevice.round hpasses (h.before.setting h.found)
  exact hround report (h.outcome.symm.trans hreport)

end RoundRecord.All

end Network

end FieldCalculus
