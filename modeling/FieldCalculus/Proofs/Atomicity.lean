import FieldCalculus.Proofs.Lifetime

/-!
A round that fails leaves nothing behind but its number. The device goes on as if the round had
been left out, whatever it meets with later.
-/

namespace FieldCalculus

/-- The outcome of a round, had it been `k` rounds later. -/
def RoundOutcome.shifted (k : Nat) : RoundOutcome → RoundOutcome
  | .ok report => .ok { report with round := report.round + k }
  | .error failure => .error { failure with round := failure.round + k }

/-- The message of a round, had it been `k` rounds later. -/
def Message.shifted (k : Nat) (m : Message) : Message :=
  { m with round := m.round + UInt64.ofNat k }

namespace PhaseTracker

variable {s t : PhaseTracker}

theorem phase_advance_congr (h : t.phase = s.phase) : t.advance.phase = s.advance.phase :=
  congrArg Phase.next h

theorem phase_abort_congr (h : t.phase = s.phase) : t.abort.phase = s.abort.phase := by
  unfold abort
  rw [h]
  split
  · exact h
  · rfl

theorem phase_stop_congr (h : t.phase = s.phase) : t.stop.phase = s.stop.phase := by
  unfold stop
  rw [h]
  split
  · rfl
  · exact h

end PhaseTracker

namespace Device

variable {d e : Device} {k : Nat}

/-- A device that has used up `k` more round numbers than another and is the same otherwise. What
the phases of earlier rounds were does not count. -/
structure Shifted (k : Nat) (d e : Device) : Prop where
  id : e.id = d.id
  program : e.program = d.program
  pacing : e.pacing = d.pacing
  state : e.state = d.state
  rounds : e.rounds = d.rounds + k
  phase : e.phases.phase = d.phases.phase
  lastExport : e.lastExport = d.lastExport
  quietRounds : e.quietRounds = d.quietRounds

namespace Shifted

theorem inputs (h : d.Shifted k e) (s : Setting) : e.inputs s = d.inputs s := by
  unfold Device.inputs
  rw [h.id, h.state]

theorem sends (h : d.Shifted k e) (exported : Export) : e.sends exported = d.sends exported := by
  unfold Device.sends isChanged isDue
  rw [h.lastExport, h.pacing, h.quietRounds]

/-- Devices that are the same but for the round number do the same round. -/
theorem round (h : d.Shifted k e) (s : Setting) :
    (d.round s).1.Shifted k (e.round s).1 ∧ (e.round s).2 = (d.round s).2.shifted k := by
  have hsame : evaluate e.program (e.inputs s) = evaluate d.program (d.inputs s) := by
    rw [h.program, h.inputs]
  have hrounds : e.rounds + 1 = d.rounds + 1 + k := by
    rw [h.rounds, Nat.add_right_comm]
  have hadvanced := PhaseTracker.phase_advance_congr (PhaseTracker.phase_advance_congr h.phase)
  cases houtcome : evaluate d.program (d.inputs s) with
  | error error =>
      rw [round_of_error houtcome, round_of_error (hsame.trans houtcome)]
      refine ⟨⟨h.id, h.program, h.pacing, h.state, hrounds, ?_, h.lastExport, h.quietRounds⟩, ?_⟩
      · exact PhaseTracker.phase_abort_congr hadvanced
      · rw [h.id, h.rounds]
        rfl
  | ok result =>
      rw [round_of_ok houtcome, round_of_ok (hsame.trans houtcome), h.sends]
      refine ⟨⟨h.id, h.program, h.pacing, ?_, hrounds, ?_, ?_, ?_⟩, ?_⟩
      · exact congrArg (DeviceState.absorb · result.exported) h.state
      · exact PhaseTracker.phase_advance_congr (PhaseTracker.phase_advance_congr hadvanced)
      · dsimp only
        rw [h.lastExport]
      · dsimp only
        rw [h.quietRounds]
      · rw [h.id, h.rounds]
        rfl

theorem offer (h : d.Shifted k e) (s : Setting) :
    e.offer s = (d.offer s).map (Message.shifted k) := by
  have hsame : evaluate e.program (e.inputs s) = evaluate d.program (d.inputs s) := by
    rw [h.program, h.inputs]
  cases houtcome : evaluate d.program (d.inputs s) with
  | error error =>
      rw [offer_of_error houtcome, offer_of_error (hsame.trans houtcome)]
      rfl
  | ok result =>
      rw [offer_of_ok houtcome, offer_of_ok (hsame.trans houtcome), h.sends, h.id, h.rounds]
      split
      · rw [Option.map_some, UInt64.ofNat_add]
        rfl
      · rfl

/-- They go on being the same through everything that happens to both. -/
theorem run (h : d.Shifted k e) (turns : List Turn) :
    (d.run turns).Shifted k (e.run turns) ∧
      e.outcomes turns = (d.outcomes turns).map (RoundOutcome.shifted k) := by
  induction turns generalizing d e with
  | nil => exact ⟨h, rfl⟩
  | cons turn rest ih =>
      cases turn with
      | stop =>
          have hstopped : (d.take .stop).Shifted k (e.take .stop) :=
            { h with phase := PhaseTracker.phase_stop_congr h.phase }
          exact ih hstopped
      | round s =>
          obtain ⟨hafter, houtcome⟩ := h.round s
          obtain ⟨hrun, houtcomes⟩ := ih hafter
          refine ⟨hrun, ?_⟩
          change (e.round s).2 :: (e.round s).1.outcomes rest = _
          rw [houtcome, houtcomes]
          rfl

end Shifted

/-- A round that fails uses up its number and changes nothing else. -/
theorem shifted_of_failed (h : d.phases.AtRest) {s : Setting} {failure : RoundFailure}
    (hfailed : (d.round s).2 = .error failure) :
    d.Shifted 1 (d.round s).1 ∧ failure.device = d.id ∧ failure.round = d.rounds ∧
      d.offer s = none := by
  obtain ⟨error, houtcome⟩ : ∃ error, evaluate d.program (d.inputs s) = .error error :=
    ⟨_, evaluate_of_failed hfailed⟩
  rw [round_of_error houtcome] at hfailed ⊢
  cases hfailed
  exact ⟨⟨rfl, rfl, rfl, rfl, rfl, h.phase_abort, rfl, rfl⟩, rfl, rfl, offer_of_error houtcome⟩

end Device

namespace Network

variable {net next : Network} {id : DeviceId} {node : Node} {failure : RoundFailure}

/-- A device after a failed round, in the network that the round has led to. -/
structure Abandoned (net : Network) (id : DeviceId) (node : Node) (failure : RoundFailure)
    (device : Device) (next : Network) : Prop where
  nodes : next.nodes = net.nodes.insert id { node with device := device }
  state : device.state = node.device.state
  lastExport : device.lastExport = node.device.lastExport
  quietRounds : device.quietRounds = node.device.quietRounds
  phase : device.phases.phase = node.device.phases.phase
  atRest : device.phases.phase = .idle ∨ device.phases.phase = .stopped
  number : failure.round = node.device.rounds
  rounds : device.rounds = node.device.rounds + 1
  silent : net.offered node = none
  /-- Only what the device itself has received was looked through. -/
  hub : next.hub = (net.swept node.endpoint).hub
  others : ∀ number, number ≠ node.endpoint →
    next.hub.endpoints.find? number = net.hub.endpoints.find? number
  /-- A later step in any surroundings is as it would have been without the failed round. -/
  step : ∀ (later : Network) (place : Node),
    (later.stepNode id { place with device := device }).2 =
        (later.stepNode id { place with device := node.device }).2.shifted 1 ∧
      later.offered { place with device := device } =
        (later.offered { place with device := node.device }).map (Message.shifted 1)
  /-- So is everything after that. -/
  future : ∀ turns, (node.device.run turns).Shifted 1 (device.run turns) ∧
    device.outcomes turns = (node.device.outcomes turns).map (RoundOutcome.shifted 1)

theorem settingOf_of_shifted {d e : Device} {k : Nat} (h : d.Shifted k e) (net : Network)
    (place : Node) :
    net.settingOf { place with device := e } = net.settingOf { place with device := d } := by
  have hneighbors : net.neighborsOf { place with device := e } =
      net.neighborsOf { place with device := d } := by
    unfold neighborsOf announced
    rw [h.id]
  unfold settingOf heard accepts
  rw [hneighbors]
  rfl

/-- A failed round is atomic: apart from its number it leaves the device as it was, it tells
nobody anything, and whatever the device does later it does as if the round had been left out. -/
theorem failed_round_atomic (hreachable : node.device.Reachable)
    (hfailed : (net.stepNode id node).2 = .error failure) :
    ∃ device, net.Abandoned id node failure device (net.stepNode id node).1 := by
  obtain ⟨counters, hround⟩ := net.stepNode_round id node
  have hrest := hreachable.atRest
  rw [outcome_stepNode] at hfailed
  obtain ⟨hshifted, -, hnumber, hsilent⟩ := Device.shifted_of_failed hrest hfailed
  have hhub : (net.stepNode id node).1.hub = (net.swept node.endpoint).hub := by
    have hoffered : net.offered node = none := hsilent
    rw [hround, exchanged, hoffered]
    rfl
  refine ⟨(node.device.round (net.settingOf node)).1, ?_⟩
  constructor
  case nodes => rw [hround]
  case state => exact hshifted.state
  case lastExport => exact hshifted.lastExport
  case quietRounds => exact hshifted.quietRounds
  case phase => exact hshifted.phase
  case atRest =>
    rw [hshifted.phase]
    exact hrest
  case number => exact hnumber
  case rounds => exact hshifted.rounds
  case silent => exact hsilent
  case hub => exact hhub
  case others =>
    intro number hother
    rw [hhub]
    change ((net.hub.update _ _).update _ _).endpoints.find? number = _
    rw [Hub.find?_update, if_neg hother, Hub.find?_update, if_neg hother]
  case step =>
    intro later place
    have hsetting := settingOf_of_shifted hshifted later place
    rw [outcome_stepNode, outcome_stepNode, hsetting]
    refine ⟨(hshifted.round _).2, ?_⟩
    rw [offered_eq, offered_eq, hsetting]
    exact hshifted.offer _
  case future => exact hshifted.run

/-- A device counts in steps of a sensor, which it loses after its first round. -/
def bumped : List Act :=
  [.join ⟨"solo"⟩ (.rep (.literal (.number (.ofNat 0))) "x"
      (.call .add [.var "x", .sense "bump"])) default,
    .changeSensors ⟨"solo"⟩ fun t => t.set "bump" (.number (.ofNat 1)), .step ⟨"solo"⟩,
    .changeSensors ⟨"solo"⟩ fun t => t.remove "bump"]

theorem bumped_abandoned :
    let net := (empty (.literal .unit) default .direct .empty .topology).run bumped
    ∃ node failure device, net.nodes.find? ⟨"solo"⟩ = some node ∧ failure.round = 1 ∧
      net.Abandoned ⟨"solo"⟩ node failure device (net.stepNode ⟨"solo"⟩ node).1 := by
  intro net
  have hfound : (net.nodes.find? ⟨"solo"⟩).isSome := by decide +kernel
  obtain ⟨node, hnode⟩ := Option.isSome_iff_exists.mp hfound
  have hreachable := reachable_run _ _ _ _ _ bumped hnode
  have hfailed : (net.stepNode ⟨"solo"⟩ node).2 = .error ⟨⟨"solo"⟩, 1,
      ⟨.sensorUnavailable "bump", [.rep 0]⟩⟩ := by
    have hrecord : (net.roundOf? (.step ⟨"solo"⟩)).map RoundRecord.outcome =
        some (.error ⟨⟨"solo"⟩, 1, ⟨.sensorUnavailable "bump", [.rep 0]⟩⟩) := rfl
    rw [roundOf?, hnode] at hrecord
    exact Option.some.inj hrecord
  obtain ⟨device, habandoned⟩ := failed_round_atomic hreachable hfailed
  exact ⟨node, _, device, hnode, rfl, habandoned⟩

end Network

end FieldCalculus
