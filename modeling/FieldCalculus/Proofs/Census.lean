import FieldCalculus.Library
import FieldCalculus.Proofs.Eval
import FieldCalculus.Proofs.Freshness
import FieldCalculus.Proofs.Inventory
import FieldCalculus.Proofs.Number
import FieldCalculus.Proofs.Suppression

/-!
Counting neighbors. A device tells the others one, and each of them adds up what it is told.
Whatever was ever sent tells it, at the place where the others look, so that a round counts every
neighbor that it hears, whenever and behind whatever links that one last did a round.
-/

namespace FieldCalculus

namespace Census

/-! ## One round -/

section Round

open Eval

variable {inputs : RoundInputs} {e : Export}

/-- Where the fold stands. -/
def foldPath : Path := [.foldHood 0]

/-- Where a device tells one. -/
def toldPath : Path := [.foldHood 0, .nbr 0]

/-- So many, as far as numbers count. -/
def count (n : Nat) : Number := .ofNat (min n (2 ^ 53))

theorem count_add_one (n : Nat) : (count n).add (.ofNat 1) = count (n + 1) :=
  Number.ofHops_add_one n

/-- What a device that has heard so many others leaves behind. -/
def counted (n : Nat) : Evaluation :=
  ⟨.number (count n), .ofPuts [(toldPath, .number (.ofNat 1)), (foldPath, .number (count n))]
    (.number (count n))⟩

/-- The device that sent the export counts as a neighbor. -/
structure Tells (e : Export) : Prop where
  aligned : e.contains foldPath
  told : e.get? toldPath = some (.number (.ofNat 1))

theorem tells_counted (n : Nat) : Tells (counted n).exported := by
  constructor
  · exact Export.contains_ofPuts.mpr (Or.inr (by simp))
  · rfl

/-- A fold over such exports adds up how many they are. -/
theorem foldNeighbors_count (depth : Nat) {ctx : Context} {neighbors : List (DeviceId × Export)}
    (hpath : ctx.path = foldPath) (htells : ∀ entry ∈ neighbors, Tells entry.2) (n slots : Nat) :
    foldNeighbors (eval (depth + 1)) (.nbr (.number (.ofNat 1))) (.builtin .add) ctx neighbors
      (.number (count n)) slots = .ok ⟨.number (count (n + neighbors.length)), slots, []⟩ := by
  have hnext : ∀ (n : Nat) (entry : DeviceId × Export), ∃ opened,
      applyTo (eval (depth + 1)) (.builtin .add) [.number (count n), .number (.ofNat 1)] ctx.silent
        0 = .ok ⟨.number (count (n + 1)), opened, []⟩ := by
    intro n entry
    have hadd : Builtin.add.call [.number (count n), .number (.ofNat 1)] =
        .ok (.number (count (n + 1))) := by
      rw [← count_add_one]
      rfl
    exact ⟨0, applyTo_builtin_ok hadd⟩
  have htold : List.Forall₂ (fun entry _ => ∃ opened, eval (depth + 1) (.nbr (.number (.ofNat 1)))
      (ctx.toSelf.focusedOn entry.1 entry.2) 0 = .ok ⟨.number (.ofNat 1), opened, []⟩)
      neighbors neighbors := by
    apply List.forall₂_same.mpr
    intro entry hentry
    have hat : (ctx.toSelf.focusedOn entry.1 entry.2).path.push (.nbr (UInt32.ofNat 0)) =
        toldPath := by
      change ctx.path.push _ = _
      rw [hpath]
      rfl
    exact ⟨1, eval_nbr_neighbor_ok rfl (hat ▸ (htells entry hentry).told)⟩
  have hlength : neighbors.foldl (fun n _ => n + 1) n = n + neighbors.length := by
    simp
  rw [← hlength]
  exact foldNeighbors_ok hnext htold n

/-- A round counts all whom it hears if they tell one. -/
theorem evaluate_neighborCount (hown : inputs.neighbors.find? inputs.device = none)
    (htells : ∀ id e, inputs.neighbors.find? id = some e → Tells e) :
    evaluate Library.neighborCount inputs = .ok (counted inputs.neighbors.size) := by
  have hentries : ∀ entry ∈ inputs.neighbors.entries, entry.1 ≠ inputs.device ∧ Tells entry.2 := by
    intro entry hentry
    have hfound := Dict.find?_eq_some_iff.mpr hentry
    refine ⟨?_, htells _ _ hfound⟩
    intro heq
    rw [heq, hown] at hfound
    cases hfound
  have haligned : ((Context.root inputs).nest (.foldHood 0)).alignedNeighbors =
      inputs.neighbors.entries := by
    apply List.filter_eq_self.mpr
    intro entry hentry
    obtain ⟨hother, htold⟩ := hentries entry hentry
    exact Bool.and_eq_true_iff.mpr ⟨decide_eq_true hother, htold.aligned⟩
  have hpath : ((Context.root inputs).nest (.foldHood 0)).path = foldPath := rfl
  have hself : eval (1048573 + 2) (.nbr (.number (.ofNat 1)))
      ((Context.root inputs).nest (.foldHood 0)).toSelf 0 =
        .ok ⟨.number (.ofNat 1), 1, [(toldPath, .number (.ofNat 1))]⟩ := rfl
  have hstart : foldStart (eval (1048573 + 2)) ((Context.root inputs).nest (.foldHood 0))
      (.builtin .add) (.number (count 0)) (.number (.ofNat 1)) false 1 =
        .ok ⟨.number (count 0), 1, []⟩ := rfl
  have htold : ∀ entry ∈ ((Context.root inputs).nest (.foldHood 0)).alignedNeighbors,
      Tells entry.2 := by
    rw [haligned]
    exact fun entry hentry => (hentries entry hentry).2
  have hfolded := foldNeighbors_count (1048573 + 1) hpath htold 0 1
  have heval : eval (1048573 + 3) Library.neighborCount (.root inputs) 0 = _ :=
    eval_neighborFold_ok rfl rfl hself hstart hfolded
  have hdepth : depthLimit = 1048573 + 3 := rfl
  rw [evaluate, evaluateIn, hdepth, heval, haligned, Nat.zero_add]
  rfl

end Round

end Census

/-- A snapshot holds as many exports as there are fresh messages from those listed. -/
theorem NeighborTable.size_snapshot (t : NeighborTable) {ids : List DeviceId} (hids : ids.Nodup)
    (now : Nat) :
    (t.snapshot ids now).size = (ids.filter fun id => (t.latest? id now).isSome).length := by
  have hkeys : (t.snapshot ids now).keys.Perm (ids.filter fun id => (t.latest? id now).isSome) := by
    apply (List.perm_ext_iff_of_nodup (t.snapshot ids now).ordered.nodup_keys
      (hids.filter _)).mpr
    intro id
    change id ∈ (t.snapshot ids now).keys ↔ _
    rw [Dict.mem_keys, find?_snapshot, List.mem_filter]
    split
    · rename_i hmem
      simp [hmem]
    · rename_i hmem
      simp [hmem]
  have hlength := hkeys.length_eq
  rwa [Dict.keys, List.length_map] at hlength

namespace Network

variable {net : Network}

/-- No device is a neighbor of itself. -/
theorem self_not_mem_neighborsOf (net : Network) (node : Node) :
    node.device.id ∉ (net.neighborsOf node).toList := by
  change node.device.id ∉ ((net.announced node).erase node.device.id).keys
  rw [Dict.mem_keys, Dict.find?_erase, if_pos rfl]
  simp

/-- The neighbors of which a device that begins a round has a fresh message. -/
def RoundRecord.freshNeighbors (r : RoundRecord) : List DeviceId :=
  (r.before.neighborsOf r.node).toList.filter fun id =>
    ((r.before.inbox r.node).latest? id r.time).isSome

theorem RoundRecord.nodup_freshNeighbors (r : RoundRecord) : r.freshNeighbors.Nodup :=
  (r.before.neighborsOf r.node).ordered.nodup_keys.filter _

theorem size_heard (h : net.Orderly) (hdirect : net.hub.delivery = .direct) (id : DeviceId)
    (node : Node) (outcome : RoundOutcome) :
    (net.heard node).size = (RoundRecord.mk net id node outcome).freshNeighbors.length := by
  have hnodup : (net.neighborsOf node).toList.Nodup := (net.neighborsOf node).ordered.nodup_keys
  rw [heard, NeighborTable.size_snapshot _ hnodup, RoundRecord.freshNeighbors]
  simp only [h.latest?_swept hdirect]
  rfl

end Network

namespace Census

open Network (Act RoundRecord)

variable {net : Network} {past : List RoundRecord} {id : DeviceId} {node : Node}

/-! ## Whole runs -/

/-- All devices count, and all that was ever sent tells one. -/
structure Counting (net : Network) (past : List RoundRecord) : Prop where
  traced : net.Traced past
  direct : net.hub.delivery = .direct
  counts : net.All (· = Library.neighborCount) fun _ => True
  sent : ∀ r ∈ past, ∀ message, r.offered = some message → Tells message.exported

namespace Counting

/-- A round counts all whom it hears. -/
theorem evaluated (h : Counting net past) (hnode : net.nodes.find? id = some node) :
    evaluate node.device.program (net.inputsAt node) = .ok (counted (net.heard node).size) := by
  obtain ⟨hdevice, -⟩ := h.counts.devices id node hnode
  rw [hdevice.program]
  refine evaluate_neighborCount ?_ ?_
  · change (net.heard node).find? node.device.id = none
    rw [Network.heard, NeighborTable.find?_snapshot, if_neg (net.self_not_mem_neighborsOf node)]
  · intro sender exported hheard
    obtain ⟨r, hr, message, hhanded, rfl⟩ := h.traced.handed_of_heard hnode hheard
    exact h.sent r hr message hhanded.offered

/-- A round succeeds and yields the number of neighbors of whom the device has a fresh message. -/
theorem round (h : Counting net past) (hnode : net.nodes.find? id = some node) :
    ∃ report, (net.stepNode id node).2 = .ok report ∧
      report.value = .number (count report.neighbors) ∧
      report.neighbors =
        (RoundRecord.mk net id node (net.stepNode id node).2).freshNeighbors.length := by
  have hevaluated : evaluate node.device.program (node.device.inputs (net.settingOf node)) =
      .ok (counted (net.heard node).size) := h.evaluated hnode
  rw [Network.outcome_stepNode, Device.round_of_ok hevaluated]
  exact ⟨_, rfl, rfl, Network.size_heard h.traced.orderly h.direct id node _⟩

/-- What counting devices leave behind counts. -/
theorem passesOn : PassesOn (· = Library.neighborCount) fun _ => True :=
  fun _ _ _ _ _ _ => ⟨trivial, fun _ _ _ => trivial⟩

theorem act (h : Counting net past) {act : Act}
    (hact : ∀ id program pacing, act = .join id program pacing → program = Library.neighborCount) :
    Counting (net.perform act) (past ++ (net.roundOf? act).toList) := by
  constructor
  case traced => exact h.traced.act act
  case direct => exact (h.traced.orderly.perform_hub act).1.trans h.direct
  case counts =>
    refine h.counts.perform passesOn ?_
    cases act with
    | join id program pacing => exact hact id program pacing rfl
    | changeSensors id change => exact fun _ _ => ⟨fun _ _ _ => trivial, fun _ _ _ _ => trivial⟩
    | _ => trivial
  case sent =>
    intro r hr message hoffered
    rcases List.mem_append.mp hr with hearlier | hlast
    · exact h.sent r hearlier message hoffered
    · obtain ⟨id, node, -, hnode, rfl⟩ := Network.exists_of_roundOf? (Option.mem_toList.mp hlast)
      obtain ⟨-, result, hresult, hexported⟩ := Network.evaluated_of_offered hoffered
      have hcounted := h.evaluated hnode
      rw [hresult, Except.ok.injEq] at hcounted
      rw [hexported, hcounted]
      exact tells_counted _

/-- Counting goes on whatever happens, as long as new devices count as well. -/
theorem run (pacing : Pacing) (topology : Topology) {acts : List Act}
    (hacts : ∀ id program pacing, .join id program pacing ∈ acts → program = Library.neighborCount) :
    let start := Network.empty Library.neighborCount pacing .direct topology .topology
    Counting (start.run acts) (start.history acts) := by
  intro start
  refine Network.run_invariant (fun act => ∀ id program pacing, act = .join id program pacing →
    program = Library.neighborCount) Counting ?_ (fun _ _ _ h hact => h.act hact) ?_
  · exact ⟨.run _ _ _ _ _ [], rfl, .empty _ _ _ _ _, by simp⟩
  · rintro act hact id program pacing rfl
    exact hacts id program pacing hact

theorem simulation (topology : Topology) (pacing : Pacing) {acts : List Act}
    (hacts : ∀ id program pacing, .join id program pacing ∈ acts → program = Library.neighborCount) :
    ∃ past,
      Counting ((Network.simulation Library.neighborCount topology pacing).run acts) past := by
  rw [Network.simulation, Network.addDevices_eq_run, ← Network.run_append]
  refine ⟨_, Counting.run pacing topology ?_⟩
  intro id program pacing hjoin
  rcases List.mem_append.mp hjoin with hbegin | hlater
  · obtain ⟨device, -, hdevice⟩ := List.mem_flatMap.mp hbegin
    simp only [List.mem_cons, List.not_mem_nil, or_false, Act.join.injEq, reduceCtorEq] at hdevice
    exact hdevice.2.1
  · exact hacts id program pacing hlater

end Counting

/-- In a simulation of counting devices every round succeeds, whatever happens between the rounds,
and counts each neighbor of which the device has a fresh message. -/
theorem neighbors_counted (topology : Topology) (pacing : Pacing) (acts : List Act)
    (hacts : ∀ id program pacing, .join id program pacing ∈ acts → program = Library.neighborCount)
    (r : RoundRecord)
    (hr : r ∈ (Network.simulation Library.neighborCount topology pacing).history acts) :
    ∃ report, r.outcome = .ok report ∧
      report.value = .number (.ofNat (min report.neighbors (2 ^ 53))) ∧
      report.neighbors = r.freshNeighbors.length ∧ r.freshNeighbors.Nodup := by
  obtain ⟨earlier, later, hhistory⟩ := List.append_of_mem hr
  obtain ⟨first, act, rest, rfl, -, hround⟩ := Network.exists_act_of_history hhistory
  obtain ⟨id, node, -, hnode, rfl⟩ := Network.exists_of_roundOf? hround
  obtain ⟨past, hcounting⟩ := Counting.simulation topology pacing fun id program pacing hjoin =>
    hacts id program pacing (List.mem_append_left _ hjoin)
  obtain ⟨report, hreport, hvalue, hneighbors⟩ := hcounting.round hnode
  exact ⟨report, hreport, hvalue, hneighbors, Network.RoundRecord.nodup_freshNeighbors _⟩

/-- A line of two devices to which a third one is added; a link is cut, and time passes until all
messages are stale. -/
def growingLine : List Act :=
  [.step ⟨"d0"⟩, .step ⟨"d1"⟩, .step ⟨"d0"⟩, .join ⟨"d2"⟩ Library.neighborCount default,
    .addToTopology ⟨"d2"⟩, .link ⟨"d1"⟩ ⟨"d2"⟩, .step ⟨"d2"⟩, .step ⟨"d1"⟩, .unlink ⟨"d0"⟩ ⟨"d1"⟩,
    .step ⟨"d1"⟩, .advance 5000, .step ⟨"d1"⟩]

theorem growingLine_counted :
    (∀ id program pacing, .join id program pacing ∈ growingLine → program = Library.neighborCount) ∧
      ∃ r ∈ (Network.simulation Library.neighborCount (.line 2) default).history growingLine,
        r.freshNeighbors = [⟨"d0"⟩, ⟨"d2"⟩] ∧
          ∃ report, r.outcome = .ok report ∧ report.value = .number (.ofNat 2) := by
  have hfresh : ((Network.simulation Library.neighborCount (.line 2) default).history
      growingLine).map RoundRecord.freshNeighbors =
        [[], [⟨"d0"⟩], [⟨"d1"⟩], [], [⟨"d0"⟩, ⟨"d2"⟩], [⟨"d2"⟩], []] := by
    decide +kernel
  have hacts : ∀ id program pacing, .join id program pacing ∈ growingLine →
      program = Library.neighborCount := by
    intro id program pacing hjoin
    simp only [growingLine, List.mem_cons, List.not_mem_nil, or_false, Act.join.injEq, reduceCtorEq,
      false_or] at hjoin
    exact hjoin.2.1
  have hmem : [⟨"d0"⟩, ⟨"d2"⟩] ∈ ((Network.simulation Library.neighborCount (.line 2)
      default).history growingLine).map RoundRecord.freshNeighbors := by
    rw [hfresh]
    simp
  obtain ⟨r, hr, htwo⟩ := List.mem_map.mp hmem
  obtain ⟨report, hreport, hvalue, hneighbors, -⟩ :=
    neighbors_counted (.line 2) default growingLine hacts r hr
  refine ⟨hacts, r, hr, htwo, report, hreport, ?_⟩
  rw [hvalue, hneighbors, htwo]
  rfl

end Census

end FieldCalculus
