import FieldCalculus.Proofs.Freshness
import FieldCalculus.Proofs.Gossip.Round
import FieldCalculus.Proofs.Lifetime
import FieldCalculus.Proofs.Suppression
import FieldCalculus.Value.Order

/-!
Gossip never makes a number up and never goes back on one. Whatever happens to the network and
however old an export is that comes to be heard again, each value was read by a device in a
round that succeeded.
-/

namespace FieldCalculus

/-- The values compare, and the first one does not come before the other. -/
def Value.NotBelow (a b : Value) : Prop := ∃ place, a.order b = .ok place ∧ place ≠ .lt

theorem Value.notBelow_number {a b : Number} (h : b.rank.toNat ≤ a.rank.toNat) :
    (number a).NotBelow (number b) := by
  refine ⟨a.totalOrder b, rfl, ?_⟩
  rw [Number.totalOrder, ne_eq, Std.compare_eq_lt, UInt64.lt_iff_toNat_lt]
  omega

namespace Network

/-- What a sensor read when a round began. -/
def RoundRecord.reading (r : RoundRecord) (sensor : String) : Option Value :=
  r.node.sensors.sensors.sense sensor

/-- The value of the last round of a device that succeeded. -/
def lastValue (past : List RoundRecord) (id : DeviceId) : Option Value :=
  ((successes past id).head?.bind RoundRecord.report?).map RoundReport.value

theorem lastValue_concat (past : List RoundRecord) (r : RoundRecord) (id : DeviceId) :
    lastValue (past ++ [r]) id =
      if r.id = id then (r.report?.map RoundReport.value).or (lastValue past id)
      else lastValue past id := by
  unfold lastValue
  split
  · rename_i heq
    have hrounds := roundsOf_concat_self past heq
    cases hreport : r.report? with
    | none => rw [successes_of_failure hrounds hreport, Option.map_none, Option.none_or]
    | some report =>
        rw [successes_of_success hrounds hreport, List.head?_cons, Option.bind_some, hreport]
        rfl
  · rename_i hne
    rw [successes, successes, roundsOf_concat_other past hne]

theorem Traced.simulation (program : Expr) (topology : Topology) (pacing : Pacing) :
    (Network.simulation program topology pacing).Traced [] := by
  refine ⟨.simulation program topology pacing, ?_, ?_⟩
  · intro r hr
    cases hr
  · intro number e he id _
    obtain ⟨hqueue, htable⟩ := (Fresh.simulation program topology pacing).blank number e he
    constructor
    · intro message hmem
      rw [hqueue] at hmem
      cases hmem
    · intro sender arrival harrival
      rw [htable, Dict.find?_empty] at harrival
      cases harrival

end Network

namespace Gossip

open HopGradient (valuePath foldPath toldPath)
open Network (RoundRecord lastValue)

variable {sensor : String} {past later : List RoundRecord} {net next : Network}

/-- The sensor reads a number if it reads anything. -/
def Numeric (sensor : String) (t : SensorTable) : Prop :=
  ∀ value, t.sensors.sense sensor = some value → ∃ number, value = .number number

/-- Some device read the number in a round that succeeded. -/
def Read (sensor : String) (past : List RoundRecord) (number : Number) : Prop :=
  ∃ r ∈ past, r.report?.isSome ∧ r.reading sensor = some (.number number)

/-- A reading may change to another number. -/
theorem numeric_set (sensor : String) (t : SensorTable) (number : Number) :
    Numeric sensor (t.set sensor (.number number)) := by
  intro value hvalue
  change (t.own.insert sensor _).find? sensor = some value at hvalue
  rw [Dict.find?_insert_self] at hvalue
  cases hvalue
  exact ⟨number, rfl⟩

/-- A reading may go away. -/
theorem numeric_remove (sensor : String) (t : SensorTable) : Numeric sensor (t.remove sensor) := by
  intro value hvalue
  change (t.own.erase sensor).find? sensor = some value at hvalue
  rw [Dict.find?_erase, if_pos rfl] at hvalue
  cases hvalue

/-- Whoever takes part with the export tells a number of a kind. -/
def Tells (known : Number → Prop) (e : Export) : Prop :=
  e.contains foldPath → ∃ told, e.get? toldPath = some (.number told) ∧ known told

theorem Read.mono {number : Number} (h : Read sensor past number) (hsub : past ⊆ later) :
    Read sensor later number := by
  obtain ⟨r, hr, hread⟩ := h
  exact ⟨r, hsub hr, hread⟩

theorem Read.of_sound {r : RoundRecord} {number own : Number}
    (hsource : number = own ∨ Read sensor past number) (hsuccess : r.report?.isSome)
    (hreading : r.reading sensor = some (.number own)) : Read sensor (past ++ [r]) number := by
  rcases hsource with rfl | hread
  · exact ⟨r, List.mem_append_right _ List.mem_cons_self, hsuccess, hreading⟩
  · exact hread.mono (List.subset_append_left _ _)

theorem Tells.mono {known wider : Number → Prop} {e : Export} (h : Tells known e)
    (hwider : ∀ number, known number → wider number) : Tells wider e := by
  intro htakes
  obtain ⟨told, htold, hknown⟩ := h htakes
  exact ⟨told, htold, hwider told hknown⟩

/-! ## One round -/

section Round

variable {inputs : RoundInputs} {own : Number} {known : Number → Prop}

/-- What comes of a round that reads `own`, after one that came to `last`. -/
structure Sound (known : Number → Prop) (own : Number) (last : Option Value) (number : Number)
    (exported : Export) : Prop where
  value : exported.get? valuePath = some (.number number)
  tells : Tells known exported
  source : number = own ∨ known number
  own_le : own.rank.toNat ≤ number.rank.toNat
  last_le : ∀ before, last = some (.number before) → before.rank.toNat ≤ number.rank.toNat

/-- A device yields its own reading or what it knows itself or from others, and the greatest of
these. -/
theorem evaluate_sound (hreads : inputs.sensors.sense sensor = some (.number own))
    (hlast : ∀ value, inputs.state.get? valuePath = some value →
      ∃ last, value = .number last ∧ known last)
    (htells : ∀ y e, inputs.neighbors.find? y = some e → Tells known e) :
    ∃ number exported, evaluate (Library.gossipMax (.sense sensor)) inputs =
        .ok ⟨.number number, exported⟩ ∧
      Sound known own (inputs.state.get? valuePath) number exported := by
  cases hremembered : inputs.state.get? valuePath with
  | none =>
      refine ⟨_, _, evaluate_first hreads hremembered, rfl, ?_, Or.inl rfl, le_rfl, ?_⟩
      · intro htakes
        cases htakes
      · rintro before ⟨⟩
  | some value =>
      obtain ⟨last, rfl, hknown⟩ := hlast value hremembered
      obtain ⟨told, htold, hfrom, -⟩ := RoundInputs.exists_told htells
      refine ⟨_, _, evaluate_later hreads hremembered (htold.imp fun _ _ h => h.1), rfl, ?_, ?_,
        rank_le_greatest List.mem_cons_self, ?_⟩
      · exact fun _ => ⟨last, rfl, hknown⟩
      · rcases List.mem_cons.mp (greatest_mem own last told) with heq | hmem
        · exact Or.inl heq
        · rcases List.mem_cons.mp hmem with heq | hheard
          · rw [heq]
            exact Or.inr hknown
          · obtain ⟨_, _, -, -, hgiven⟩ := hfrom _ hheard
            exact Or.inr hgiven
      · rintro before ⟨⟩
        exact rank_le_greatest (List.mem_cons_of_mem _ List.mem_cons_self)

/-- Without a reading a round fails. -/
theorem evaluate_unread (hnone : inputs.sensors.sense sensor = none) :
    ∃ error, evaluate (Library.gossipMax (.sense sensor)) inputs = .error error := by
  have hdepth : depthLimit = 1048575 + 1 := rfl
  have hinputs : (Context.root inputs).inputs = inputs := rfl
  have hsense : (Context.root inputs).sense sensor = .error (.sensorUnavailable sensor) := by
    rw [Context.sense, hinputs, hnone]
  have hfailed : Eval.eval (1048575 + 1) (Library.gossipMax (.sense sensor)) (.root inputs) 0 =
      .error (.failed ⟨.sensorUnavailable sensor, Path.root⟩) := by
    change (Eval.located _ ((Context.root inputs).sense sensor) >>= _ : Eval Value) 0 = _
    rw [hsense]
    rfl
  refine ⟨⟨.sensorUnavailable sensor, Path.root⟩, ?_⟩
  rw [evaluate, evaluateIn, hdepth, hfailed]

end Round

/-! ## Whole runs -/

/-- Whatever the devices have and whatever was ever sent goes back to readings. -/
structure Honest (sensor : String) (net : Network) (past : List RoundRecord) : Prop where
  traced : net.Traced past
  gossips : ∀ id node, net.nodes.find? id = some node →
    node.device.program = Library.gossipMax (.sense sensor) ∧ Numeric sensor node.sensors
  remembers : ∀ id node, net.nodes.find? id = some node →
    node.device.state.get? valuePath = lastValue past id
  read : ∀ id value, lastValue past id = some value →
    ∃ number, value = .number number ∧ Read sensor past number
  sent : ∀ r ∈ past, ∀ message, r.offered = some message →
    Tells (Read sensor past) message.exported

namespace Honest

variable {id : DeviceId} {node : Node}

theorem simulation (sensor : String) (topology : Topology) (pacing : Pacing) :
    Honest sensor
      (Network.simulation (Library.gossipMax (.sense sensor)) topology pacing) [] := by
  have hfresh := Network.Fresh.simulation (Library.gossipMax (.sense sensor)) topology pacing
  constructor
  case traced => exact .simulation _ topology pacing
  case gossips =>
    intro id node hnode
    refine ⟨by rw [hfresh.device id node hnode]; rfl, ?_⟩
    intro value hvalue
    rw [Network.sensors_simulation hnode] at hvalue
    cases hvalue
  case remembers =>
    intro id node hnode
    rw [hfresh.device id node hnode]
    rfl
  case read => rintro id value ⟨⟩
  case sent =>
    intro r hr
    cases hr

/-- A round that succeeds has read a number, and is sound. -/
theorem round (h : Honest sensor net past) (hnode : net.nodes.find? id = some node)
    {result : Evaluation} (hresult : evaluate node.device.program (net.inputsAt node) = .ok result) :
    ∃ own number, node.sensors.sensors.sense sensor = some (.number own) ∧
      result.value = .number number ∧
      Sound (Read sensor past) own (lastValue past id) number result.exported := by
  have hremembers : (net.inputsAt node).state.get? valuePath = lastValue past id :=
    h.remembers id node hnode
  obtain ⟨hprogram, hnumeric⟩ := h.gossips id node hnode
  rw [hprogram] at hresult
  cases hreading : node.sensors.sensors.sense sensor with
  | none =>
      obtain ⟨error, hfailed⟩ : ∃ error, evaluate (Library.gossipMax (.sense sensor))
          (net.inputsAt node) = .error error := evaluate_unread hreading
      rw [hfailed] at hresult
      cases hresult
  | some value =>
      obtain ⟨own, rfl⟩ := hnumeric value hreading
      have hlast : ∀ value, (net.inputsAt node).state.get? valuePath = some value →
          ∃ last, value = .number last ∧ Read sensor past last := by
        rw [hremembers]
        exact h.read id
      have htells : ∀ y e, (net.inputsAt node).neighbors.find? y = some e →
          Tells (Read sensor past) e := by
        intro y e hheard
        obtain ⟨r, hr, message, hhanded, rfl⟩ := h.traced.handed_of_heard hnode hheard
        exact h.sent r hr message hhanded.offered
      obtain ⟨number, exported, hevaluated, hsound⟩ := evaluate_sound hreading hlast htells
      rw [hevaluated] at hresult
      cases hresult
      rw [hremembers] at hsound
      exact ⟨own, number, rfl, rfl, hsound⟩

/-- A round leaves everything going back to readings if what comes of it does. -/
theorem turn (h : Honest sensor net past) {r : RoundRecord} (htraced : next.Traced (past ++ [r]))
    (hnode : net.nodes.find? r.id = some r.node) {device : Device}
    (hnodes : ∀ other, next.nodes.find? other =
      if other = r.id then some { r.node with device := device } else net.nodes.find? other)
    (hprogram : device.program = r.node.device.program)
    (hstate : device.state.get? valuePath =
      (r.report?.map RoundReport.value).or (lastValue past r.id))
    (hreport : ∀ report, r.report? = some report →
      ∃ number, report.value = .number number ∧ Read sensor (past ++ [r]) number)
    (hoffered : ∀ message, r.offered = some message →
      Tells (Read sensor (past ++ [r])) message.exported) :
    Honest sensor next (past ++ [r]) := by
  have hsub : past ⊆ past ++ [r] := List.subset_append_left _ _
  constructor
  case traced => exact htraced
  case gossips =>
    intro id node hfound
    rw [hnodes] at hfound
    split at hfound
    · cases hfound
      obtain ⟨hgossips, hnumeric⟩ := h.gossips r.id r.node hnode
      exact ⟨hprogram.trans hgossips, hnumeric⟩
    · exact h.gossips id node hfound
  case remembers =>
    intro id node hfound
    rw [hnodes] at hfound
    rw [Network.lastValue_concat]
    split at hfound
    · rename_i heq
      cases hfound
      rw [heq, if_pos rfl]
      exact hstate
    · rename_i hne
      rw [if_neg fun heq => hne heq.symm]
      exact h.remembers id node hfound
  case read =>
    intro id value hvalue
    have hbefore : lastValue past id = some value →
        ∃ number, value = .number number ∧ Read sensor (past ++ [r]) number := by
      intro hlast
      obtain ⟨number, hnumber, hread⟩ := h.read id value hlast
      exact ⟨number, hnumber, hread.mono hsub⟩
    rw [Network.lastValue_concat] at hvalue
    split at hvalue
    · cases hsuccess : r.report? with
      | none =>
          rw [hsuccess] at hvalue
          exact hbefore hvalue
      | some report =>
          rw [hsuccess] at hvalue
          cases hvalue
          exact hreport report hsuccess
    · exact hbefore hvalue
  case sent =>
    intro other hother message hmessage
    rcases List.mem_append.mp hother with hold | hnew
    · exact (h.sent other hold message hmessage).mono fun _ hread => hread.mono hsub
    · rw [List.mem_singleton.mp hnew] at hmessage
      exact hoffered message hmessage

/-- A round adds at most one reading, and what comes of it goes back to that or to those
before. -/
theorem step (h : Honest sensor net past) (hnode : net.nodes.find? id = some node) :
    Honest sensor (net.perform (.step id)) (past ++ (net.roundOf? (.step id)).toList) := by
  have htraced := h.traced.act (.step id)
  have hrecord : net.roundOf? (.step id) = some ⟨net, id, node, (net.stepNode id node).2⟩ := by
    rw [Network.roundOf?, hnode]
    rfl
  obtain ⟨counters, hround⟩ := net.stepNode_round id node
  have hnodes : ∀ other, (net.perform (.step id)).nodes.find? other =
      if other = id then some { node with device := (node.device.round (net.settingOf node)).1 }
      else net.nodes.find? other := by
    intro other
    rw [Network.perform, Network.step, hnode]
    dsimp only
    rw [hround]
    exact Dict.find?_insert _ _ _ _
  rw [hrecord, Option.toList_some, hround] at htraced ⊢
  dsimp only at htraced ⊢
  cases houtcome : evaluate node.device.program (node.device.inputs (net.settingOf node)) with
  | error error =>
      rw [Device.round_of_error houtcome] at htraced hnodes ⊢
      refine h.turn htraced hnode hnodes rfl (h.remembers id node hnode) ?_ ?_
      · rintro report ⟨⟩
      · intro message hmessage
        rw [RoundRecord.offered, Network.offered_eq, Device.offer_of_error houtcome] at hmessage
        cases hmessage
  | ok result =>
      obtain ⟨own, number, hreading, hvalue, hsound⟩ := h.round hnode houtcome
      have habsorbed := DeviceState.get?_absorb_eq node.device.state result.exported valuePath
      have hends : Path.endsIn valuePath .rep = true := rfl
      rw [hsound.value, if_pos hends, Option.some_or, ← hvalue] at habsorbed
      rw [Device.round_of_ok houtcome] at htraced hnodes ⊢
      refine h.turn htraced hnode hnodes rfl habsorbed ?_ ?_
      · rintro report ⟨⟩
        exact ⟨number, hvalue, .of_sound hsound.source rfl hreading⟩
      · intro message hmessage
        rw [RoundRecord.offered, Network.offered_eq, Device.offer_of_ok houtcome] at hmessage
        split at hmessage
        · cases hmessage
          exact hsound.tells.mono fun _ hread => hread.mono (List.subset_append_left _ _)
        · cases hmessage

theorem act (h : Honest sensor net past) {act : Network.Act}
    (hact : act.Settled fun change => ∀ t, Numeric sensor t → Numeric sensor (change t)) :
    Honest sensor (net.perform act) (past ++ (net.roundOf? act).toList) := by
  rcases hact.step_or_edit net with ⟨id, rfl⟩ | ⟨hnone, hedited⟩
  · cases hnode : net.nodes.find? id with
    | some node => exact h.step hnode
    | none =>
        have hstill : net.perform (.step id) = net := Network.step_unknown hnode
        rw [Network.roundOf?, hnode, Option.map_none, Option.toList_none, List.append_nil, hstill]
        exact h
  · have htraced := h.traced.act act
    rw [hnone, Option.toList_none, List.append_nil] at htraced ⊢
    refine ⟨htraced, ?_, ?_, h.read, h.sent⟩
    · intro id node hnode
      obtain ⟨before, hbefore, hdevice, hsensors⟩ := hedited id node hnode
      obtain ⟨hprogram, hnumeric⟩ := h.gossips id before hbefore
      refine ⟨hdevice ▸ hprogram, ?_⟩
      rcases hsensors with hsame | ⟨change, hkeeps, hchanged⟩
      · rw [hsame]
        exact hnumeric
      · rw [hchanged]
        exact hkeeps before.sensors hnumeric
    · intro id node hnode
      obtain ⟨before, hbefore, hdevice, -⟩ := hedited id node hnode
      rw [hdevice]
      exact h.remembers id before hbefore

theorem run (sensor : String) (topology : Topology) (pacing : Pacing) {acts : List Network.Act}
    (hacts : ∀ act ∈ acts,
      act.Settled fun change => ∀ t, Numeric sensor t → Numeric sensor (change t)) :
    let start := Network.simulation (Library.gossipMax (.sense sensor)) topology pacing
    Honest sensor (start.run acts) (start.history acts) :=
  Network.run_invariant _ (Honest sensor) (.simulation sensor topology pacing)
    (fun _ _ _ h hact => h.act hact) hacts

end Honest

/-- While devices do rounds in any order, readings change to other numbers or go away, links come
and go and time passes, each round that succeeds yields a number that a device has read in this
or an earlier round that succeeded. It is not below the device's own reading, nor below the
value of its last round that succeeded. -/
theorem values_were_read (sensor : String) (topology : Topology) (pacing : Pacing)
    (acts : List Network.Act)
    (hacts : ∀ act ∈ acts,
      act.Settled fun change => ∀ t, Numeric sensor t → Numeric sensor (change t))
    (earlier later : List RoundRecord) (r : RoundRecord) (report : RoundReport)
    (hhistory : (Network.simulation (Library.gossipMax (.sense sensor)) topology pacing).history
      acts = earlier ++ r :: later)
    (hreport : r.report? = some report) :
    ∃ number own, report.value = .number number ∧ Read sensor (earlier ++ [r]) number ∧
      r.reading sensor = some (.number own) ∧ report.value.NotBelow (.number own) ∧
      ∀ last, lastValue earlier r.id = some last → report.value.NotBelow last := by
  obtain ⟨first, act, rest, rfl, rfl, hround⟩ := Network.exists_act_of_history hhistory
  have hsettled : ∀ act ∈ first,
      act.Settled fun change => ∀ t, Numeric sensor t → Numeric sensor (change t) :=
    fun act hact => hacts act (List.mem_append_left _ hact)
  have hhonest := Honest.run sensor topology pacing hsettled
  cases act with
  | step id =>
      rw [Network.roundOf?, Option.map_eq_some_iff] at hround
      obtain ⟨node, hnode, rfl⟩ := hround
      obtain ⟨counters, hstep⟩ := Network.stepNode_round _ id node
      rw [hstep] at hreport ⊢
      cases houtcome : evaluate node.device.program (node.device.inputs (Network.settingOf _ node)) with
      | error error =>
          rw [Device.round_of_error houtcome] at hreport
          cases hreport
      | ok result =>
          obtain ⟨own, number, hreading, hvalue, hsound⟩ := hhonest.round hnode houtcome
          rw [Device.round_of_ok houtcome] at hreport ⊢
          cases hreport
          refine ⟨number, own, hvalue, .of_sound hsound.source rfl hreading, hreading, ?_, ?_⟩
          · rw [hvalue]
            exact Value.notBelow_number hsound.own_le
          · intro last hlast
            obtain ⟨before, rfl, -⟩ := hhonest.read id last hlast
            rw [hvalue]
            exact Value.notBelow_number (hsound.last_le before hlast)
  | _ => cases hround

/-- The head of a line reads the greater number, is heard and then cut off, and loses its
reading; the other one reads less than before and hears of the head again later. -/
def relinkedLine : List Network.Act :=
  [.changeSensors ⟨"d0"⟩ fun t => t.set "value" (.number 5),
    .changeSensors ⟨"d1"⟩ fun t => t.set "value" (.number 3),
    .step ⟨"d1"⟩, .step ⟨"d0"⟩, .step ⟨"d0"⟩, .unlink ⟨"d0"⟩ ⟨"d1"⟩,
    .changeSensors ⟨"d0"⟩ fun t => t.remove "value", .advance 1500, .step ⟨"d0"⟩, .step ⟨"d1"⟩,
    .changeSensors ⟨"d1"⟩ fun t => t.set "value" (.number 2), .link ⟨"d1"⟩ ⟨"d0"⟩, .step ⟨"d1"⟩]

theorem relinkedLine_values_were_read : ∃ earlier r report,
    (Network.simulation (Library.gossipMax (.sense "value")) (.line 2) default).history
        relinkedLine = earlier ++ [r] ∧
      r.report? = some report ∧ report.value = .number 5 ∧ Read "value" (earlier ++ [r]) 5 ∧
      ∀ last, lastValue earlier r.id = some last → report.value.NotBelow last := by
  have hvalues : ((Network.simulation (Library.gossipMax (.sense "value")) (.line 2)
      default).history relinkedLine).map (fun r => r.report?.map fun report =>
        report.value.asNumber.toOption) =
      [some (some 3), some (some 5), some (some 5), none, some (some 3)] ++ [some (some 5)] := by
    decide +kernel
  have hsettled : ∀ act ∈ relinkedLine,
      act.Settled fun change => ∀ t, Numeric "value" t → Numeric "value" (change t) := by
    simp only [relinkedLine, List.mem_cons, List.not_mem_nil, or_false, forall_eq_or_imp, forall_eq,
      Network.Act.Settled, numeric_set, numeric_remove, implies_true, and_self]
  obtain ⟨earlier, rest, hhistory, -, hlast⟩ := List.map_eq_append_iff.mp hvalues
  obtain ⟨r, rfl, hr⟩ := List.map_eq_singleton_iff.mp hlast
  obtain ⟨report, hreport, hfive⟩ := Option.map_eq_some_iff.mp hr
  obtain ⟨number, own, hnumber, hread, -, -, hbefore⟩ := values_were_read "value" (.line 2) default
    relinkedLine hsettled earlier [] r report hhistory hreport
  rw [hnumber] at hfive
  cases hfive
  exact ⟨earlier, r, report, hhistory, hreport, hnumber, hread, hbefore⟩

end Gossip

end FieldCalculus
