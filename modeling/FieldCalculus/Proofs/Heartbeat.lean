import FieldCalculus.Proofs.Deliveries
import Mathlib.Data.List.Chain

/-!
Why a device that keeps going stays visible although it sends an unchanged export only every
so many rounds. Settings are accepted if that silence is shorter than the time that tables
remember, and then a neighbor has a fresh message from the first round on until an interval
has passed since the last one.
-/

namespace FieldCalculus

namespace Pacing

variable {p : Pacing}

/-- Settings are accepted if the interval is positive and the longest silence is shorter than
what tables remember, computed without any bound. -/
theorem fault?_eq_none_iff : p.fault? = none ↔ 0 < p.roundInterval.toNat ∧
    p.roundInterval.toNat * max p.republishEvery.toNat 1 < p.staleness.toNat := by
  have hzero : p.roundInterval = 0 ↔ p.roundInterval.toNat = 0 := by
    rw [← UInt64.toNat_inj]
    rfl
  -- A product beyond 64 bits counts as the largest number, which no window exceeds.
  have hquiet : p.staleness.toNat ≤ p.quiet ↔
      p.staleness.toNat ≤ p.roundInterval.toNat * max p.republishEvery.toNat 1 := by
    have hbound : p.staleness.toNat < UInt64.size := p.staleness.toNat_lt
    unfold quiet period
    omega
  unfold fault?
  by_cases hnull : p.roundInterval = 0
  · rw [if_pos hnull]
    simp [hzero.mp hnull]
  · rw [if_neg hnull]
    rw [hzero] at hnull
    by_cases hlong : p.staleness.toNat ≤ p.quiet
    · rw [if_pos hlong]
      rw [hquiet] at hlong
      simp [hlong]
    · rw [if_neg hlong]
      rw [hquiet, Nat.not_le] at hlong
      simp [hlong, Nat.pos_of_ne_zero hnull]

/-- As many intervals as there are rounds from one message to the next, less one, leave a whole
interval of what tables remember. -/
theorem silence_lt_staleness (h : p.fault? = none) :
    (p.period - 1) * p.roundInterval.toNat + p.roundInterval.toNat < p.staleness.toNat := by
  obtain ⟨-, hlong⟩ := fault?_eq_none_iff.mp h
  have hperiod : p.period - 1 + 1 = p.period := Nat.sub_add_cancel (Nat.le_max_right _ 1)
  calc (p.period - 1) * p.roundInterval.toNat + p.roundInterval.toNat
      = p.roundInterval.toNat * p.period := by
        rw [← Nat.succ_mul, Nat.succ_eq_add_one, hperiod, Nat.mul_comm]
    _ < p.staleness.toNat := hlong

end Pacing

namespace Network

variable {net next : Network} {past : List RoundRecord} {id a b : DeviceId} {number : Nat}
  {pacing : Pacing}

/-! ## What is asked of a run -/

/-- The rounds of a device succeed, address a recipient and follow one another in time. -/
structure Regular (pacing : Pacing) (b : DeviceId) (rounds : List RoundRecord) : Prop where
  succeed : ∀ r ∈ rounds, r.report?.isSome
  linked : ∀ r ∈ rounds, b ∈ (r.before.neighborsOf r.node).toList
  paced : ∀ r ∈ rounds, r.node.device.pacing = pacing
  onTime : rounds.IsChain fun r s => s.time ≤ r.time + pacing.roundInterval.toNat

theorem Regular.of_concat {rounds : List RoundRecord} {r : RoundRecord}
    (h : Regular pacing b (rounds ++ [r])) : Regular pacing b rounds ∧
      ∀ last, rounds.getLast? = some last → r.time ≤ last.time + pacing.roundInterval.toNat := by
  obtain ⟨hsucceed, hlinked, hpaced, honTime⟩ := h
  rw [List.isChain_append] at honTime
  refine ⟨⟨?_, ?_, ?_, honTime.1⟩, ?_⟩
  · exact fun s hs => hsucceed s (List.mem_append_left _ hs)
  · exact fun s hs => hlinked s (List.mem_append_left _ hs)
  · exact fun s hs => hpaced s (List.mem_append_left _ hs)
  · exact fun last hlast => honTime.2.2 last hlast r rfl

/-- A device is there and addressed at its own endpoint. -/
def Joined (net : Network) (id : DeviceId) : Prop :=
  ∃ node, net.nodes.find? id = some node ∧ net.hub.registry.find? id = some node.endpoint

/-! ## What a recipient holds -/

/-- An endpoint holds a message that was not out of date when its sender did its last round,
and will not be before the sender is due to send again. -/
def Seen (net : Network) (pacing : Pacing) (a : DeviceId) (number : Nat) (last : RoundRecord) :
    Prop :=
  ∃ arrival, net.hub.held number a = some arrival ∧ arrival.message.sender = a ∧
    last.time ≤ arrival.receivedAt + (pacing.period - 1) * pacing.roundInterval.toNat ∧
    ∀ node, net.nodes.find? a = some node → node.device.lastExport ≠ none →
      last.time ≤ arrival.receivedAt + node.device.quietRounds * pacing.roundInterval.toNat

/-- A device that has not done a round has not handed anything over. -/
def Unheard (net : Network) (past : List RoundRecord) (a : DeviceId) : Prop :=
  roundsOf past a = [] → ∀ node, net.nodes.find? a = some node → node.device.lastExport = none

/-- A run over a direct hub, seen from a device and from the endpoint of a recipient. -/
structure Visible (net : Network) (past : List RoundRecord) (pacing : Pacing) (a b : DeviceId)
    (number : Nat) : Prop where
  orderly : net.Orderly
  direct : net.hub.delivery = .direct
  window : net.hub.staleness = pacing.staleness.toNat
  addressed : net.hub.registry.find? b = some number
  owned : ∃ node, net.nodes.find? b = some node ∧ node.endpoint = number
  unheard : net.Unheard past a
  seen : Regular pacing b (roundsOf past a) → ∀ last, (roundsOf past a).getLast? = some last →
    net.now ≤ last.time + pacing.roundInterval.toNat → net.Seen pacing a number last

theorem Unheard.act (h : net.Unheard past a) (horderly : net.Orderly) (act : Act) :
    (net.perform act).Unheard (past ++ (net.roundOf? act).toList) a := by
  intro hnone node hnode
  rcases net.roundsOf_append_roundOf? past act a with ⟨_, -, -, hone⟩ | ⟨hother, hsame⟩
  · rw [hone] at hnone
    exact absurd hnone (by simp)
  · rw [hsame] at hnone
    rcases horderly.device_perform hother hnode with ⟨_, _, -, hnew⟩ | ⟨before, hbefore, heq⟩
    · rw [hnew]
      rfl
    · rw [← heq]
      exact h hnone before hbefore

theorem Unheard.run (horderly : net.Orderly) (acts : List Act) (h : net.Unheard [] a) :
    (net.run acts).Unheard (net.history acts) a :=
  (run_invariant (fun _ => True) (fun net past => net.Orderly ∧ net.Unheard past a)
    ⟨horderly, h⟩ (fun _ _ act hgood _ => ⟨hgood.1.perform act, hgood.2.act hgood.1 act⟩)
    fun _ _ => trivial).2

namespace Visible

variable {node : Node} {outcome : RoundOutcome}

/-- What is held from a regular sender is fresh until its next round is overdue. -/
theorem fresh (h : net.Visible past pacing a b number) (hvalid : pacing.fault? = none)
    {last : RoundRecord} {arrival : Arrival}
    (hsince : last.time ≤ arrival.receivedAt + (pacing.period - 1) * pacing.roundInterval.toNat)
    (hnow : net.now ≤ last.time + pacing.roundInterval.toNat) :
    net.now ≤ arrival.receivedAt + net.hub.staleness := by
  have hsilence := Pacing.silence_lt_staleness hvalid
  rw [h.window]
  omega

theorem held_own (h : net.Visible past pacing a b number)
    (hnode : net.nodes.find? a = some node) (hresult : net.RoundResult a node next outcome)
    (hlinked : b ∈ (net.neighborsOf node).toList) {message : Message}
    (hoffered : net.offered node = some message) :
    next.hub.held number a = some ⟨message, net.now⟩ := by
  obtain ⟨other, hother, hnumber⟩ := h.owned
  refine hresult.held_of_offered h.direct (h.orderly.device a node hnode) hoffered hlinked
    h.addressed ?_
  rw [← hnumber]
  exact h.orderly.present b other hother

/-- After a round that was not sent, the recipient holds what it held, since which one more
interval at most has gone by. -/
theorem seen_quiet (h : net.Visible past pacing a b number) (hvalid : pacing.fault? = none)
    (hnode : net.nodes.find? a = some node) (hpaced : node.device.pacing = pacing)
    (hspoken : node.device.lastExport ≠ none) (hnotDue : node.device.isDue = false)
    (hregular : Regular pacing b (roundsOf past a ++ [⟨net, a, node, outcome⟩]))
    {device : Device} (hquiet : device.quietRounds = node.device.quietRounds + 1)
    (hafter : next.nodes.find? a = some { node with device := device })
    (hkept : ∀ arrival, net.hub.held number a = some arrival →
      net.now ≤ arrival.receivedAt + net.hub.staleness →
        next.hub.held number a = some arrival) :
    next.Seen pacing a number ⟨net, a, node, outcome⟩ := by
  obtain ⟨hbefore, honTime⟩ := hregular.of_concat
  have hheard : roundsOf past a ≠ [] := fun hnone => hspoken (h.unheard hnone node hnode)
  obtain ⟨last, hlast⟩ := Option.ne_none_iff_exists'.mp (mt List.getLast?_eq_none_iff.mp hheard)
  have hdue : net.now ≤ last.time + pacing.roundInterval.toNat := honTime last hlast
  obtain ⟨arrival, harrived, hsender, hsince, hback⟩ := h.seen hbefore last hlast hdue
  -- The message is one interval older at most, and it was sent one round further back.
  have hlater : net.now ≤
      arrival.receivedAt + (node.device.quietRounds + 1) * pacing.roundInterval.toNat := by
    have hback := hback node hnode hspoken
    rw [Nat.succ_mul]
    omega
  have hrecent : node.device.quietRounds + 1 ≤ pacing.period - 1 := by
    rw [Device.isDue, decide_eq_false_iff_not, hpaced] at hnotDue
    omega
  refine ⟨arrival, hkept arrival harrived (h.fresh hvalid hsince hdue), hsender, ?_, ?_⟩
  · exact Nat.le_trans hlater (Nat.add_le_add_left (Nat.mul_le_mul_right _ hrecent) _)
  · intro after hfound _
    rw [hafter] at hfound
    cases hfound
    rw [hquiet]
    exact hlater

/-- After a regular round the recipient holds the message just sent or one that is not out of
date. -/
theorem seen_own (h : net.Visible past pacing a b number) (hvalid : pacing.fault? = none)
    (hnode : net.nodes.find? a = some node) (hresult : net.RoundResult a node next outcome)
    (hregular : Regular pacing b (roundsOf past a ++ [⟨net, a, node, outcome⟩])) :
    next.Seen pacing a number ⟨net, a, node, outcome⟩ := by
  have hid := h.orderly.device a node hnode
  have hrecord := List.mem_append_right (roundsOf past a)
    (List.mem_singleton_self (⟨net, a, node, outcome⟩ : RoundRecord))
  have hsucceed := hregular.succeed _ hrecord
  have hpaced : node.device.pacing = pacing :=
    hregular.paced ⟨net, a, node, outcome⟩ hrecord
  have hlinked : b ∈ (net.neighborsOf node).toList :=
    hregular.linked ⟨net, a, node, outcome⟩ hrecord
  have hsent : ∀ message, net.offered node = some message →
      next.hub.held number a = some ⟨message, net.now⟩ :=
    fun _ => h.held_own hnode hresult hlinked
  have hkept : ∀ arrival, net.offered node = none → net.hub.held number a = some arrival →
      net.now ≤ arrival.receivedAt + net.hub.staleness →
        next.hub.held number a = some arrival :=
    fun _ hsilent => hresult.held_of_held h.orderly h.direct hid fun _ => hsilent
  cases hresult with
  | failed => cases hsucceed
  | quiet _ hsilent hunchanged hnotDue _ hquiet hturned =>
      -- An export can only be unchanged if there was one before.
      have hspoken : node.device.lastExport ≠ none := by
        intro hnone
        rw [Device.isChanged, hnone] at hunchanged
        cases hunchanged
      refine h.seen_quiet hvalid hnode hpaced hspoken hnotDue hregular hquiet ?_
        fun arrival => hkept arrival hsilent
      rw [hturned.nodes, if_pos rfl]
  | offered _ hoffer hsender _ _ _ _ _ =>
      refine ⟨_, hsent _ hoffer, hsender.trans hid, Nat.le_add_right _ _, ?_⟩
      exact fun _ _ _ => Nat.le_add_right _ _

/-- What is to be held is, through everything but a round of its sender. -/
theorem seen_other (h : net.Visible past pacing a b number) (hvalid : pacing.fault? = none)
    {act : Act} (hother : ∀ r, net.roundOf? act = some r → r.id ≠ a)
    (hregular : Regular pacing b (roundsOf past a)) {last : RoundRecord}
    (hlast : (roundsOf past a).getLast? = some last)
    (hnow : net.now ≤ last.time + pacing.roundInterval.toNat) :
    (net.perform act).Seen pacing a number last := by
  obtain ⟨arrival, harrived, hsender, hsince, hquiet⟩ := h.seen hregular last hlast hnow
  have hkept := h.orderly.held_perform h.direct hother harrived (h.fresh hvalid hsince hnow)
  refine ⟨arrival, hkept, hsender, hsince, ?_⟩
  intro node hnode hspoken
  rcases h.orderly.device_perform hother hnode with ⟨_, _, -, hnew⟩ | ⟨before, hbefore, heq⟩
  · rw [hnew] at hspoken
    exact absurd rfl hspoken
  · rw [← heq] at hspoken ⊢
    exact hquiet before hbefore hspoken

/-- Whatever happens short of the recipient's leaving or joining, what it is to hold it does. -/
theorem act (h : net.Visible past pacing a b number) (hvalid : pacing.fault? = none) {act : Act}
    (hstays : act.moves b = false) :
    (net.perform act).Visible (past ++ (net.roundOf? act).toList) pacing a b number := by
  obtain ⟨hdelivery, hstaleness⟩ := h.orderly.perform_hub act
  constructor
  case orderly => exact h.orderly.perform act
  case direct => rw [hdelivery, h.direct]
  case window => rw [hstaleness, h.window]
  case addressed => rw [h.orderly.registry_perform h.direct hstays, h.addressed]
  case owned =>
    obtain ⟨node, hnode, hnumber⟩ := h.owned
    obtain ⟨after, hafter, hendpoint⟩ := h.orderly.endpoint_perform hstays hnode
    exact ⟨after, hafter, hendpoint.trans hnumber⟩
  case unheard => exact h.unheard.act h.orderly act
  case seen =>
    intro hregular last hlast hdue
    rcases net.roundsOf_append_roundOf? past act a with ⟨node, rfl, hnode, hone⟩ | ⟨hother, hsame⟩
    · rw [hone] at hregular hlast
      rw [List.getLast?_concat, Option.some.injEq] at hlast
      rw [← hlast, perform, Network.step, hnode]
      exact h.seen_own hvalid hnode (stepNode_result a (h.orderly.linkUp a node hnode)) hregular
    · rw [hsame] at hregular hlast
      exact h.seen_other hvalid hother hregular hlast
        (Nat.le_trans (h.orderly.now_perform act) hdue)

/-- A network over a direct hub before the first round of a device. -/
theorem start (program : Expr) (topology : Topology) (neighborhood : Neighborhood)
    {acts : List Act}
    (hunheard : roundsOf ((Network.empty program pacing .direct topology neighborhood).history
      acts) a = [])
    (hjoined : ((Network.empty program pacing .direct topology neighborhood).run acts).Joined b) :
    ∃ number, ((Network.empty program pacing .direct topology neighborhood).run acts).Visible []
      pacing a b number := by
  have hempty := Orderly.empty program pacing .direct topology neighborhood
  obtain ⟨node, hnode, haddress⟩ := hjoined
  obtain ⟨hdelivery, hstaleness⟩ := hempty.run_hub acts
  refine ⟨node.endpoint, hempty.run acts, hdelivery, hstaleness, haddress, ⟨node, hnode, rfl⟩,
    ?_, ?_⟩
  · exact fun _ => Unheard.run hempty acts (fun _ _ hnone => by cases hnone) hunheard
  · intro _ last hlast
    cases hlast

theorem run (h : net.Visible [] pacing a b number) (hvalid : pacing.fault? = none)
    {acts : List Act} (hstay : ∀ act ∈ acts, act.moves b = false) :
    (net.run acts).Visible (net.history acts) pacing a b number :=
  run_invariant (fun act => act.moves b = false)
    (fun net past => net.Visible past pacing a b number) h
    (fun _ _ _ hgood hact => hgood.act hvalid hact) hstay

end Visible

/-- Settings are accepted exactly if the silence that they allow is shorter than what tables
remember. With accepted settings a device that does its rounds in time, none of which fails,
stays visible to a neighbor: from its first round on, until an interval after its last one,
the neighbor has a fresh message from it, whatever else happens short of the neighbor's
leaving or joining anew. -/
theorem accepted_and_visible (pacing : Pacing) :
    (pacing.fault? = none ↔ 0 < pacing.roundInterval.toNat ∧
      pacing.roundInterval.toNat * max pacing.republishEvery.toNat 1 < pacing.staleness.toNat) ∧
    (pacing.fault? = none → ∀ (program : Expr) (topology : Topology) (neighborhood : Neighborhood)
      (before acts : List Act) (a b : DeviceId),
      let empty := Network.empty program pacing .direct topology neighborhood
      let start := empty.run before
      roundsOf (empty.history before) a = [] → start.Joined b →
      (∀ act ∈ acts, act.moves b = false) → Regular pacing b (roundsOf (start.history acts) a) →
      ∀ last, (roundsOf (start.history acts) a).getLast? = some last →
      (start.run acts).now ≤ last.time + pacing.roundInterval.toNat →
      ∃ node message, (start.run acts).nodes.find? b = some node ∧
        ((start.run acts).inbox node).latest? a (start.run acts).now = some message ∧
        message.sender = a) := by
  refine ⟨Pacing.fault?_eq_none_iff, ?_⟩
  intro hvalid program topology neighborhood before acts a b empty start hunheard hjoined hstay
    hregular last hlast hnow
  obtain ⟨number, hstart⟩ := Visible.start program topology neighborhood hunheard hjoined
  have hvisible := hstart.run hvalid hstay
  obtain ⟨node, hnode, hnumber⟩ := hvisible.owned
  obtain ⟨arrival, harrived, hsender, hsince, -⟩ := hvisible.seen hregular last hlast hnow
  rw [← hnumber] at harrived
  exact ⟨node, arrival.message, hnode,
    latest?_of_held hvisible.orderly harrived (hvisible.fresh hvalid hsince hnow), hsender⟩

/-! ## A device that has nothing new to say -/

/-- Two devices, linked. -/
def linkedPair : List Act :=
  [.join ⟨"a"⟩ (.literal .unit) default, .join ⟨"b"⟩ (.literal .unit) default,
    .link ⟨"a"⟩ ⟨"b"⟩]

/-- The first device does three rounds in time, of which only the first is sent. -/
def threeRounds : List Act :=
  [.step ⟨"a"⟩, .advance 200, .step ⟨"a"⟩, .step ⟨"b"⟩, .advance 150, .step ⟨"a"⟩, .advance 200]

theorem threeRounds_visible : ∃ node message,
    (((Network.empty (.literal .unit) default .direct .empty .topology).run linkedPair).run
      threeRounds).nodes.find? ⟨"b"⟩ = some node ∧
    ((((Network.empty (.literal .unit) default .direct .empty .topology).run linkedPair).run
      threeRounds).inbox node).latest? ⟨"a"⟩ 550 = some message ∧ message.sender = ⟨"a"⟩ := by
  refine (accepted_and_visible default).2 (by decide) (.literal .unit) .empty .topology linkedPair
    threeRounds ⟨"a"⟩ ⟨"b"⟩ rfl ⟨_, rfl, rfl⟩ (by decide) ⟨?_, ?_, ?_, ?_⟩ _ rfl (by decide +kernel)
  · decide +kernel
  · decide +kernel
  · decide +kernel
  · decide +kernel

end Network

end FieldCalculus
