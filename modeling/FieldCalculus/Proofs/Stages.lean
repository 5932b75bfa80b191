import FieldCalculus.Proofs.HopGradient.Stages

/-!
Protocols that get on by stages. In a stage every device steps at least once, in any order and
with any steps in between. If a round on what all devices have sent by one stage always sends
what the next stage asks for, then each segment of a schedule is worth a stage.
-/

namespace FieldCalculus

open HopGradient (latest Heard)

theorem root_of_evaluate {program : Expr} {inputs : RoundInputs} {result : Evaluation}
    (h : evaluate program inputs = .ok result) : result.exported.root? = some result.value := by
  unfold evaluate evaluateIn at h
  split at h
  · cases h
    exact (Export.get?_ofPuts _ _ _).trans (if_pos rfl)
  · cases h
  · cases h

/-- A program whose devices remember a value at one slot, and what the export taken last from a
device may be at each stage. -/
structure Protocol where
  program : Expr
  slot : Path
  allowed : ℕ → DeviceId → Option Export → Prop

/-- Whatever the devices have sent last by a stage, if it was allowed, the next round of each of
them succeeds and sends what is allowed at the next stage. -/
structure Protocol.Advances (p : Protocol) (start : Network) : Prop where
  state : Path.endsIn p.slot .rep
  begins : ∀ id, p.allowed 0 id none
  keeps : ∀ stage id taken, p.allowed (stage + 1) id taken → p.allowed stage id taken
  rigid : ∀ stage later id e e', p.allowed stage id (some e) → p.allowed later id (some e') →
    e.equals e' → e = e'
  round : ∀ stage (inputs : RoundInputs) (taken : DeviceId → Option Export),
    (start.nodes.find? inputs.device).isSome →
    (∀ name, inputs.sensors.sense name = start.reads inputs.device name) →
    inputs.state.get? p.slot = (taken inputs.device).bind (fun e => e.get? p.slot) →
    (∀ y e, inputs.neighbors.find? y = some e ↔
      start.graph.Adj inputs.device y ∧ taken y = some e) →
    (∀ id, (start.nodes.find? id).isSome → p.allowed stage id (taken id)) →
    ∃ result, evaluate p.program inputs = .ok result ∧
      (result.exported.get? p.slot).isSome ∧
      p.allowed (stage + 1) inputs.device (some result.exported)

/-- The network is at a stage: every device has sent what the stage asks for, its neighbors have
it, and the device remembers its value. -/
structure Stage (p : Protocol) (start : Network) (stage : ℕ) (net : Network) : Prop where
  wired : net.Wired
  built : net.topology.Built
  graph : net.graph = start.graph
  present : ∀ id, (net.nodes.find? id).isSome = (start.nodes.find? id).isSome
  reads : ∀ id name, net.reads id name = start.reads id name
  runs : ∀ id node, net.nodes.find? id = some node → node.device.program = p.program
  remembers : ∀ id node, net.nodes.find? id = some node → node.device.state.get? p.slot =
    node.device.lastExport.bind fun e => e.get? p.slot
  known : ∀ id y e, net.received id y = some e → (net.nodes.find? y).isSome
  heard : ∀ id, Heard net id
  value : ∀ id, net.recorder.value? id = (latest net id).bind Export.root?
  reached : ∀ id, (start.nodes.find? id).isSome → p.allowed stage id (latest net id)

namespace Stage

variable {p : Protocol} {start net : Network} {stage : ℕ} {id : DeviceId}

/-- A simulation begins at the first stage, whatever its sensors have been set to. -/
theorem begin {topology : Topology} {pacing : Pacing} (hbuilt : topology.Built)
    (hadvances : p.Advances start)
    (hedited : (Network.simulation p.program topology pacing).Edited start) :
    Stage p start 0 start := by
  have hfresh := Network.Fresh.simulation p.program topology pacing
  have hnone : ∀ id, latest start id = none := by
    intro id
    rw [HopGradient.latest_edited hedited, HopGradient.latest_fresh hfresh]
  have hunheard : ∀ id y, start.received id y = none := by
    intro id y
    rw [hedited.received, hfresh.received]
  have hdevice : ∀ id node, start.nodes.find? id = some node →
      node.device = .start id p.program pacing := by
    intro id node hnode
    have hsame := hedited.devices id
    rw [hnode, Option.map_some, eq_comm, Option.map_eq_some_iff] at hsame
    obtain ⟨before, hbefore, heq⟩ := hsame
    rw [← heq]
    exact hfresh.device id before hbefore
  constructor
  case wired => exact hedited.wired
  case built =>
    apply hedited.built
    rw [Network.topology_simulation]
    exact hbuilt
  case graph => rfl
  case present => exact fun _ => rfl
  case reads => exact fun _ _ => rfl
  case runs =>
    intro id node hnode
    rw [hdevice id node hnode]
    rfl
  case remembers =>
    intro id node hnode
    rw [hdevice id node hnode]
    rfl
  case known =>
    intro id y e he
    rw [hunheard] at he
    cases he
  case heard =>
    intro id neighbor _
    rw [hunheard, hnone]
  case value =>
    intro id
    rw [hnone, hedited.recorder, hfresh.recorder]
    rfl
  case reached =>
    intro id _
    rw [hnone]
    exact hadvances.begins id

/-- A device that is there completes its round and is at the next stage. -/
theorem round (h : Stage p start stage net) (hadvances : p.Advances start) {node : Node}
    (hnode : net.nodes.find? id = some node) :
    ∃ result, evaluate node.device.program (net.inputsOf node) = .ok result ∧
      (result.exported.get? p.slot).isSome ∧ p.allowed (stage + 1) id (some result.exported) := by
  have hid : node.device.id = id := h.wired.device id node hnode
  have hpresent : (start.nodes.find? id).isSome := by
    rw [← h.present, hnode]
    rfl
  have hdevice : (net.inputsOf node).device = id := hid
  rw [h.runs id node hnode]
  have hsense : ∀ name, (net.inputsOf node).sensors.sense name = start.reads id name := by
    intro name
    rw [← h.reads, Network.reads, hnode]
    rfl
  have hstate : (net.inputsOf node).state.get? p.slot =
      (latest net id).bind fun e => e.get? p.slot := by
    rw [HopGradient.latest_eq hnode]
    exact h.remembers id node hnode
  have hneighbors : ∀ y e, (net.inputsOf node).neighbors.find? y = some e ↔
      start.graph.Adj id y ∧ latest net y = some e := by
    intro y e
    rw [h.wired.find?_inputsOf h.built hnode (h.known id), ← h.graph]
    refine and_congr_right fun hadj => ?_
    rw [h.heard y id hadj.symm]
  rw [← hdevice] at hpresent hsense hstate hneighbors ⊢
  exact hadvances.round stage _ (latest net) hpresent hsense hstate hneighbors h.reached

/-- The next step of a device succeeds, with a result that the next stage allows. -/
theorem outcome (h : Stage p start stage net) (hadvances : p.Advances start)
    (hpresent : (start.nodes.find? id).isSome) :
    ∃ report, (net.step id).2 = some (.ok report) ∧
      report.exported.root? = some report.value ∧
      p.allowed (stage + 1) id (some report.exported) := by
  rw [← h.present] at hpresent
  obtain ⟨node, hnode⟩ := Option.isSome_iff_exists.mp hpresent
  obtain ⟨result, hround, -, hallowed⟩ := h.round hadvances hnode
  obtain ⟨report, hstep, hvalue, hexported⟩ := h.wired.outcome_of_ok hnode hround
  refine ⟨report, hstep, ?_, hexported ▸ hallowed⟩
  rw [hvalue, hexported, root_of_evaluate hround]

/-- A step leaves the network at its stage and takes the device to the next one. -/
theorem step_reached (h : Stage p start stage net) (hadvances : p.Advances start)
    (id : DeviceId) :
    Stage p start stage (net.step id).1 ∧
      ((start.nodes.find? id).isSome → p.allowed (stage + 1) id (latest (net.step id).1 id)) ∧
      ∀ other, other ≠ id → latest (net.step id).1 other = latest net other := by
  cases hnode : net.nodes.find? id with
  | none =>
      rw [Network.step_unknown hnode]
      refine ⟨h, ?_, fun _ _ => rfl⟩
      intro hpresent
      rw [← h.present, hnode] at hpresent
      cases hpresent
  | some node =>
      obtain ⟨result, hround, hslot, hallowed⟩ := h.round hadvances hnode
      have hpresent : (start.nodes.find? id).isSome := by
        rw [← h.present, hnode]
        rfl
      have hrigid : ∀ last, latest net id = some last → last.equals result.exported →
          last = result.exported := by
        intro last hlast hequals
        have hbefore := h.reached id hpresent
        rw [hlast] at hbefore
        exact hadvances.rigid _ _ id _ _ hbefore hallowed hequals
      obtain ⟨device, sent, hstepped, hsame, hstate, hlast, -, -, hcompleted⟩ :=
        HopGradient.exists_succeeded h.wired h.built hnode hround hrigid
      have hlatest : ∀ other, latest (net.step id).1 other =
          if other = id then some result.exported else latest net other := hcompleted.latest
      refine ⟨?_, ?_, ?_⟩
      · constructor
        case wired => exact hstepped.wired
        case built =>
          rw [hstepped.topology]
          exact h.built
        case graph => exact (hstepped.graph hnode).trans h.graph
        case present =>
          intro other
          rw [hstepped.isSome hnode, h.present]
        case reads =>
          intro other name
          rw [hstepped.reads hnode, h.reads]
        case runs =>
          intro other x hx
          rw [hstepped.nodes] at hx
          split at hx
          · cases hx
            exact hsame.program.trans (h.runs id node hnode)
          · exact h.runs other x hx
        case remembers =>
          intro other x hx
          rw [hstepped.nodes] at hx
          split at hx
          · cases hx
            obtain ⟨v, hv⟩ := Option.isSome_iff_exists.mp hslot
            rw [hstate, DeviceState.get?_absorb_eq, if_pos hadvances.state, hlast,
              Option.bind_some, hv, Option.some_or]
          · exact h.remembers other x hx
        case known =>
          intro other y e he
          rw [hstepped.isSome hnode]
          rw [HopGradient.received_stepped hstepped h.built hnode] at he
          split at he
          · rename_i hto
            rw [hto.1, hnode]
            rfl
          · exact h.known other y e he
        case heard =>
          intro other
          exact (h.heard other).completed hcompleted (hstepped.graph hnode)
        case value =>
          intro other
          rw [hstepped.value, hlatest]
          split
          · rw [Option.some_or, Option.bind_some, root_of_evaluate hround]
          · exact h.value other
        case reached =>
          intro other hother
          rw [hlatest]
          split
          · rename_i heq
            rw [heq]
            exact hadvances.keeps _ _ _ hallowed
          · exact h.reached other hother
      · intro _
        rw [hlatest, if_pos rfl]
        exact hallowed
      · intro other hne
        rw [hlatest, if_neg hne]

theorem step (h : Stage p start stage net) (hadvances : p.Advances start) (id : DeviceId) :
    Stage p start stage (net.step id).1 :=
  (h.step_reached hadvances id).1

theorem run (h : Stage p start stage net) (hadvances : p.Advances start)
    (schedule : List DeviceId) : Stage p start stage (net.stepEach schedule).1 :=
  Network.stepEach_invariant (fun _ id h => h.step hadvances id) h schedule

theorem reached_run (h : Stage p start stage net) (hadvances : p.Advances start)
    {schedule : List DeviceId} (hpresent : (start.nodes.find? id).isSome)
    (hschedule : id ∈ schedule) :
    p.allowed (stage + 1) id (latest (net.stepEach schedule).1 id) := by
  have hkept : ∀ net id other, Stage p start stage net → other ≠ id →
      ((start.nodes.find? other).isSome → p.allowed (stage + 1) other (latest net other)) →
        (start.nodes.find? other).isSome →
          p.allowed (stage + 1) other (latest (net.step id).1 other) := by
    intro net id other h hne hreached hother
    rw [(h.step_reached hadvances id).2.2 other hne]
    exact hreached hother
  exact Network.stepEach_reaches (fun net id =>
    (start.nodes.find? id).isSome → p.allowed (stage + 1) id (latest net id))
    (fun _ id h => h.step hadvances id) (fun _ id h => (h.step_reached hadvances id).2.1) hkept h
    hschedule hpresent

/-- A segment in which every device steps is worth a stage. -/
theorem segment (h : Stage p start stage net) (hadvances : p.Advances start)
    {segment : List DeviceId} (hall : ∀ id, (start.nodes.find? id).isSome → id ∈ segment) :
    Stage p start (stage + 1) (net.stepEach segment).1 :=
  { h.run hadvances segment with
    reached := fun id hpresent => h.reached_run hadvances hpresent (hall id hpresent) }

/-- After so many segments a network has come as many stages further, whatever steps are done
before and after them. -/
theorem segments (h : Stage p start stage net) (hadvances : p.Advances start)
    (before after : List DeviceId) {segments : List (List DeviceId)}
    (hall : ∀ segment ∈ segments, ∀ id, (start.nodes.find? id).isSome → id ∈ segment) :
    Stage p start (stage + segments.length)
      (net.stepEach (before ++ segments.flatten ++ after)).1 := by
  rw [Network.stepEach_append, Network.stepEach_append]
  have hflat : Stage p start (stage + segments.length)
      ((net.stepEach before).1.stepEach segments.flatten).1 := by
    refine Network.stepEach_flatten ?_ (h.run hadvances before)
    intro segment hsegment _ _ h
    exact h.segment hadvances (hall segment hsegment)
  exact hflat.run hadvances after

end Stage

end FieldCalculus
