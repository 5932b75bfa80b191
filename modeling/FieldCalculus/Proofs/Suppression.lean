import FieldCalculus.Proofs.Deliveries

/-!
Why a neighbor does not notice that unchanged exports are not sent. While no time passes,
the last export that a device handed over stands for its latest one, and it was handed over
in one of the last rounds that succeeded.
-/

namespace FieldCalculus.Network

variable {net next : Network} {past : List RoundRecord} {id a b : DeviceId} {node : Node}

/-! ## Simulations as runs -/

theorem addDevices_eq_run (net : Network) (ids : List DeviceId) :
    ids.foldl addDevice net =
      net.run (ids.flatMap fun id => [.join id net.program net.pacing, .addToTopology id]) := by
  induction ids generalizing net with
  | nil => rfl
  | cons id rest ih => exact ih (net.addDevice id)

theorem Orderly.simulation (program : Expr) (topology : Topology) (pacing : Pacing) :
    (Network.simulation program topology pacing).Orderly := by
  rw [Network.simulation, addDevices_eq_run]
  exact (Orderly.empty _ _ _ _ _).run _

/-! ## Acts that let no time pass -/

/-- An act that lets no time pass and takes no device away. -/
def Act.isTimeless : Act → Bool
  | .advance _ | .drop _ | .leave _ => false
  | _ => true

/-- Whether an act adds a device that is there already. -/
def replaces (net : Network) : Act → Bool
  | .join id _ _ => (net.nodes.find? id).isSome
  | _ => false

/-- Whether acts let no time pass, take no device away and add none anew. -/
def isSteady (net : Network) : List Act → Bool
  | [] => true
  | act :: rest => act.isTimeless && !net.replaces act && (net.perform act).isSteady rest

/-- A device that is there stays where it is. -/
theorem moves_of_isTimeless {act : Act} (htimeless : act.isTimeless)
    (hnew : net.replaces act = false) (hfound : net.nodes.find? id = some node) :
    act.moves id = false := by
  cases act with
  | join other _ _ =>
      apply decide_eq_false
      rintro rfl
      rw [replaces, hfound] at hnew
      cases hnew
  | drop _ => cases htimeless
  | leave _ => cases htimeless
  | _ => rfl

namespace Orderly

variable {act : Act}

theorem now_perform_of_isTimeless (h : net.Orderly) (htimeless : act.isTimeless) :
    (net.perform act).now = net.now := by
  cases act with
  | step id =>
      rw [Network.perform, Network.step]
      cases hnode : net.nodes.find? id with
      | none => rfl
      | some node =>
          obtain ⟨_, _, hturned⟩ := (net.stepNode_result id (h.linkUp id node hnode)).turned
          exact hturned.now
  | advance _ => cases htimeless
  | drop _ => cases htimeless
  | leave _ => cases htimeless
  | _ => rfl

/-- Every device is addressed at its own endpoint if it was so before. -/
theorem addressed_perform (h : net.Orderly) (hdirect : net.hub.delivery = .direct)
    (htimeless : act.isTimeless) (hnew : net.replaces act = false)
    (haddressed : ∀ id node, net.nodes.find? id = some node →
      net.hub.registry.find? id = some node.endpoint)
    (hnode : (net.perform act).nodes.find? id = some node) :
    (net.perform act).hub.registry.find? id = some node.endpoint := by
  cases hbefore : net.nodes.find? id with
  | some before =>
      have hstays := moves_of_isTimeless htimeless hnew hbefore
      obtain ⟨after, hafter, hendpoint⟩ := h.endpoint_perform hstays hbefore
      rw [hnode] at hafter
      cases hafter
      rw [h.registry_perform hdirect hstays, haddressed id before hbefore, hendpoint]
  | none =>
      have hnone : ∀ r, net.roundOf? act = some r → r.id ≠ id := by
        rintro r hr rfl
        rw [found_of_roundOf? hr] at hbefore
        cases hbefore
      rcases h.device_perform hnone hnode with ⟨program, pacing, rfl, -⟩ | ⟨before, hfound, -⟩
      · rw [find?_perform_join, if_pos rfl] at hnode
        cases hnode
        rw [registry_perform_join hdirect, if_pos rfl]
      · rw [hbefore] at hfound
        cases hfound

end Orderly

/-! ## Rounds that succeeded -/

/-- The rounds of a device that succeeded, the latest first. -/
def successes (past : List RoundRecord) (id : DeviceId) : List RoundRecord :=
  ((roundsOf past id).filter fun r => r.report?.isSome).reverse

theorem successes_of_success {later : List RoundRecord} {r : RoundRecord} {report : RoundReport}
    (hrounds : roundsOf later id = roundsOf past id ++ [r]) (hreport : r.report? = some report) :
    successes later id = r :: successes past id := by
  rw [successes, hrounds, List.filter_append, List.reverse_append,
    List.filter_cons_of_pos (by simp [hreport])]
  rfl

theorem successes_of_failure {later : List RoundRecord} {r : RoundRecord}
    (hrounds : roundsOf later id = roundsOf past id ++ [r]) (hreport : r.report? = none) :
    successes later id = successes past id := by
  rw [successes, hrounds, List.filter_append, List.filter_cons_of_neg (by simp [hreport]),
    List.filter_nil, List.append_nil]
  rfl

/-! ## What stands for the latest export -/

/-- A device is linked to another one of the network. -/
def Reaches (net : Network) (a b : DeviceId) : Prop :=
  net.topology.Linked a b ∧ (net.nodes.find? b).isSome

instance (net : Network) (a b : DeviceId) : Decidable (net.Reaches a b) :=
  inferInstanceAs (Decidable (_ ∧ _))

/-- A device holds an export of another that has just arrived. -/
def Knows (net : Network) (b a : DeviceId) (exported : Export) : Prop :=
  ∃ node message, net.nodes.find? b = some node ∧
    net.hub.held node.endpoint a = some ⟨message, net.now⟩ ∧ message.sender = a ∧
      message.exported = exported

/-- What a device handed over last, what its latest success came to and what another device
holds from it. -/
inductive Told (net : Network) (past : List RoundRecord) (a b : DeviceId) (device : Device) :
    Prop where
  | silent (lastExport : device.lastExport = none) (nothing : successes past a = [])
  | spoken {last : Export} {latest sent : RoundRecord} {report : RoundReport}
    (lastExport : device.lastExport = some last)
    (first : (successes past a).head? = some latest)
    (paced : latest.node.device.pacing = device.pacing)
    (reported : latest.report? = some report)
    (same : last = report.exported ∨ last.equals report.exported)
    (origin : (successes past a)[device.quietRounds]? = some sent)
    (recent : device.quietRounds < device.pacing.period)
    (received : sent.before.Reaches a b → net.Knows b a last) :
    Told net past a b device

namespace Told

variable {device after : Device} {later : List RoundRecord} {r : RoundRecord}
  {report : RoundReport}

/-- What was told stands as long as the device has no further success. -/
theorem keep (h : net.Told past a b device) (hsuccesses : successes later a = successes past a)
    (hlast : after.lastExport = device.lastExport) (hquiet : after.quietRounds = device.quietRounds)
    (hpacing : after.pacing = device.pacing)
    (hknown : ∀ exported, net.Knows b a exported → next.Knows b a exported) :
    next.Told later a b after := by
  cases h with
  | silent hnone hnothing => exact .silent (hlast.trans hnone) (hsuccesses.trans hnothing)
  | spoken hsome hfirst hpaced hreported hsame horigin hrecent hreceived =>
      rw [← hsuccesses] at hfirst horigin
      rw [← hquiet] at horigin hrecent
      rw [← hpacing] at hpaced hrecent
      exact .spoken (hlast.trans hsome) hfirst hpaced hreported hsame horigin hrecent
        fun hreached => hknown _ (hreceived hreached)

/-- After a success that was not sent, the export sent last still stands for the latest, one
success further back. -/
theorem quiet (h : net.Told past a b device)
    (hsuccesses : successes later a = r :: successes past a) (hreport : r.report? = some report)
    (hdevice : r.node.device = device) (hunchanged : device.isChanged report.exported = false)
    (hnotDue : device.isDue = false) (hlast : after.lastExport = device.lastExport)
    (hquiet : after.quietRounds = device.quietRounds + 1) (hpacing : after.pacing = device.pacing)
    (hknown : ∀ exported, net.Knows b a exported → next.Knows b a exported) :
    next.Told later a b after := by
  cases h with
  | silent hnone _ =>
      rw [Device.isChanged, hnone] at hunchanged
      cases hunchanged
  | @spoken _ _ sent _ hsome _ _ _ _ horigin _ hreceived =>
      rw [Device.isChanged, hsome, Bool.not_eq_false'] at hunchanged
      rw [Device.isDue, decide_eq_false_iff_not, Nat.not_le] at hnotDue
      have hfirst : (successes later a).head? = some r := by
        rw [hsuccesses, List.head?_cons]
      have hpaced : r.node.device.pacing = after.pacing := by
        rw [hdevice, hpacing]
      have hback : (successes later a)[after.quietRounds]? = some sent := by
        rw [hsuccesses, hquiet, List.getElem?_cons_succ, horigin]
      have hrecent : after.quietRounds < after.pacing.period := by
        rw [hquiet, hpacing]
        exact hnotDue
      exact .spoken (hlast.trans hsome) hfirst hpaced hreport (Or.inr hunchanged) hback hrecent
        fun hreached => hknown _ (hreceived hreached)

/-- After a success that was sent, its export stands for itself. -/
theorem sent (hsuccesses : successes later a = r :: successes past a)
    (hreport : r.report? = some report) (hpaced : r.node.device.pacing = after.pacing)
    (hlast : after.lastExport = some report.exported) (hquiet : after.quietRounds = 0)
    (hreceived : r.before.Reaches a b → next.Knows b a report.exported) :
    next.Told later a b after := by
  have hfirst : (successes later a).head? = some r := by
    rw [hsuccesses, List.head?_cons]
  have horigin : (successes later a)[after.quietRounds]? = some r := by
    rw [hsuccesses, hquiet, List.getElem?_cons_zero]
  have hrecent : after.quietRounds < after.pacing.period := by
    rw [hquiet]
    exact Nat.le_max_right _ 1
  exact .spoken hlast hfirst hpaced hreport (Or.inl rfl) horigin hrecent hreceived

end Told

/-- A simulation in which no time has passed, seen from one device and from another. -/
structure Telling (net : Network) (past : List RoundRecord) (a b : DeviceId) : Prop where
  orderly : net.Orderly
  direct : net.hub.delivery = .direct
  neighborhood : net.neighborhood = .topology
  built : net.topology.Built
  addressed : ∀ id node, net.nodes.find? id = some node →
    net.hub.registry.find? id = some node.endpoint
  behind : ∀ r ∈ past, (net.nodes.find? r.id).isSome
  told : ∀ node, net.nodes.find? a = some node → net.Told past a b node.device

namespace Telling

variable {outcome : RoundOutcome}

theorem simulation {topology : Topology} (hbuilt : topology.Built) (program : Expr)
    (pacing : Pacing) (a b : DeviceId) : (simulation program topology pacing).Telling [] a b := by
  have hfresh := Fresh.simulation program topology pacing
  constructor
  case orderly => exact .simulation program topology pacing
  case direct => exact hfresh.wired.direct
  case neighborhood => exact hfresh.wired.neighborhood
  case built =>
    rw [topology_simulation]
    exact hbuilt
  case addressed =>
    intro id node hnode
    rw [hfresh.wired.registry, hnode, Option.map_some]
  case behind =>
    intro r hr
    cases hr
  case told =>
    intro node hnode
    rw [hfresh.device a node hnode]
    exact .silent rfl rfl

/-- What is known stays known through everything but an offer of its sender. -/
theorem knows_perform (h : net.Telling past a b) {act : Act} (htimeless : act.isTimeless)
    (hnew : net.replaces act = false)
    (hheld : ∀ number message, net.hub.held number a = some ⟨message, net.now⟩ →
      (net.perform act).hub.held number a = some ⟨message, net.now⟩)
    (exported : Export) (hknown : net.Knows b a exported) :
    (net.perform act).Knows b a exported := by
  obtain ⟨node, message, hnode, harrived, hmessage⟩ := hknown
  obtain ⟨after, hafter, hendpoint⟩ :=
    h.orderly.endpoint_perform (moves_of_isTimeless htimeless hnew hnode) hnode
  refine ⟨after, message, hafter, ?_, hmessage⟩
  rw [hendpoint, h.orderly.now_perform_of_isTimeless htimeless]
  exact hheld _ _ harrived

/-- What a device offers is known to each device that it reaches. -/
theorem knows_offered (h : net.Telling past a b) (hnode : net.nodes.find? a = some node)
    (hresult : net.RoundResult a node (net.perform (.step a)) outcome) {message : Message}
    (hoffered : net.offered node = some message) (hsender : message.sender = a)
    (hreached : net.Reaches a b) : (net.perform (.step a)).Knows b a message.exported := by
  have hid := h.orderly.device a node hnode
  obtain ⟨hlinked, hpresent⟩ := hreached
  obtain ⟨other, hother⟩ := Option.isSome_iff_exists.mp hpresent
  have hstays : Act.moves b (.step a) = false := rfl
  have htimeless : Act.isTimeless (.step a) := rfl
  obtain ⟨after, hafter, hendpoint⟩ := h.orderly.endpoint_perform hstays hother
  have hmem : b ∈ (net.neighborsOf node).toList := by
    rw [mem_neighborsOf_topology h.neighborhood, hid]
    refine ⟨hlinked, ?_⟩
    rintro rfl
    exact h.built.irrefl hlinked
  refine ⟨after, message, hafter, ?_, hsender, rfl⟩
  rw [hendpoint, h.orderly.now_perform_of_isTimeless htimeless]
  exact hresult.held_of_offered h.direct hid hoffered hmem (h.addressed b other hother)
    (h.orderly.present b other hother)

theorem told_own (h : net.Telling past a b) (hnode : net.nodes.find? a = some node)
    (hresult : net.RoundResult a node (net.perform (.step a)) outcome)
    {later : List RoundRecord}
    (hrounds : roundsOf later a = roundsOf past a ++ [⟨net, a, node, outcome⟩]) {after : Node}
    (hafter : (net.perform (.step a)).nodes.find? a = some after) :
    (net.perform (.step a)).Told later a b after.device := by
  have htold := h.told node hnode
  have hknown : net.offered node = none → ∀ exported, net.Knows b a exported →
      (net.perform (.step a)).Knows b a exported := by
    intro hsilent
    refine h.knows_perform rfl rfl fun number message hheld => ?_
    exact hresult.held_of_held h.orderly h.direct (h.orderly.device a node hnode)
      (fun _ => hsilent) hheld (Nat.le_add_right _ _)
  have hreached : ∀ message, net.offered node = some message → message.sender = a →
      net.Reaches a b → (net.perform (.step a)).Knows b a message.exported :=
    fun _ => h.knows_offered hnode hresult
  have hdevice : ∀ device hub, net.Turned a node device hub (net.perform (.step a)) →
      after.device = device := by
    intro device hub hturned
    rw [hturned.nodes, if_pos rfl] at hafter
    cases hafter
    rfl
  cases hresult with
  | failed _ hsilent hlast hquiet hturned =>
      rw [hdevice _ _ hturned]
      exact htold.keep (successes_of_failure hrounds rfl) hlast hquiet hturned.same.pacing
        (hknown hsilent)
  | quiet _ hsilent hunchanged hnotDue hlast hquiet hturned =>
      rw [hdevice _ _ hturned]
      exact htold.quiet (successes_of_success hrounds rfl) rfl rfl hunchanged hnotDue hlast hquiet
        hturned.same.pacing (hknown hsilent)
  | offered _ hoffer hsender hexported hpublication haccepted _ hturned =>
      obtain ⟨hlast, hquiet⟩ := haccepted (by
        rw [hpublication]
        exact (RoundResult.direct_publication h.direct _ _ _).2)
      rw [hdevice _ _ hturned]
      refine .sent (successes_of_success hrounds rfl) rfl hturned.same.pacing.symm hlast hquiet ?_
      rw [← hexported]
      exact hreached _ hoffer (hsender.trans (h.orderly.device a node hnode))

/-- What a device has told stands through everything but its own rounds. -/
theorem told_other (h : net.Telling past a b) {act : Act} (htimeless : act.isTimeless)
    (hnew : net.replaces act = false) (hother : ∀ r, net.roundOf? act = some r → r.id ≠ a)
    {later : List RoundRecord} (hrounds : roundsOf later a = roundsOf past a) {after : Node}
    (hafter : (net.perform act).nodes.find? a = some after) :
    (net.perform act).Told later a b after.device := by
  have hsuccesses : successes later a = successes past a := by
    rw [successes, hrounds, ← successes]
  rcases h.orderly.device_perform hother hafter with ⟨_, _, rfl, hstart⟩ | ⟨before, hbefore, heq⟩
  · -- A device that has just been added has not done a round.
    have hnothing : roundsOf past a = [] := by
      refine List.filter_eq_nil_iff.mpr fun r hr hid => ?_
      rw [replaces, ← of_decide_eq_true hid, h.behind r hr] at hnew
      cases hnew
    rw [hstart]
    exact .silent rfl (by rw [hsuccesses, successes, hnothing]; rfl)
  · rw [← heq]
    refine (h.told before hbefore).keep hsuccesses rfl rfl rfl (h.knows_perform htimeless hnew ?_)
    exact fun _ _ hheld =>
      h.orderly.held_perform h.direct hother hheld (Nat.le_add_right _ _)

theorem act (h : net.Telling past a b) {act : Act} (htimeless : act.isTimeless)
    (hnew : net.replaces act = false) :
    (net.perform act).Telling (past ++ (net.roundOf? act).toList) a b := by
  obtain ⟨hdelivery, -⟩ := h.orderly.perform_hub act
  obtain ⟨hneighborhood, hbuilt⟩ := h.orderly.surroundings_perform act
  have hstays : ∀ id, (net.nodes.find? id).isSome → ((net.perform act).nodes.find? id).isSome := by
    intro id hpresent
    obtain ⟨node, hnode⟩ := Option.isSome_iff_exists.mp hpresent
    obtain ⟨after, hafter, -⟩ :=
      h.orderly.endpoint_perform (moves_of_isTimeless htimeless hnew hnode) hnode
    rw [hafter]
    rfl
  constructor
  case orderly => exact h.orderly.perform act
  case direct => rw [hdelivery, h.direct]
  case neighborhood => rw [hneighborhood, h.neighborhood]
  case built => exact hbuilt h.built
  case addressed =>
    exact fun id node => h.orderly.addressed_perform h.direct htimeless hnew h.addressed
  case behind =>
    intro r hr
    rcases List.mem_append.mp hr with hold | hlast
    · exact hstays r.id (h.behind r hold)
    · have hfound := found_of_roundOf? (Option.mem_toList.mp hlast)
      exact hstays r.id (by rw [hfound]; rfl)
  case told =>
    intro after hafter
    rcases net.roundsOf_append_roundOf? past act a with ⟨node, rfl, hnode, hone⟩ | ⟨hother, hsame⟩
    · have hresult := net.stepNode_result a (h.orderly.linkUp a node hnode)
      have hstep : (net.stepNode a node).1 = net.perform (.step a) := by
        rw [perform, Network.step, hnode]
      rw [hstep] at hresult
      exact h.told_own hnode hresult hone hafter
    · exact h.told_other htimeless hnew hother hsame hafter

theorem run {acts : List Act} (h : net.Telling past a b) (hsteady : net.isSteady acts) :
    (net.run acts).Telling (past ++ net.history acts) a b := by
  induction acts generalizing net past with
  | nil =>
      rw [history, List.append_nil]
      exact h
  | cons act rest ih =>
      simp only [isSteady, Bool.and_eq_true, Bool.not_eq_true'] at hsteady
      obtain ⟨⟨htimeless, hnew⟩, hrest⟩ := hsteady
      rw [history, ← List.append_assoc]
      exact ih (h.act htimeless hnew) hrest

end Telling

/-- While no time passes and no device is taken away or replaced, a device that reached another
one in its last rounds that succeeded, as many as there are from one message to the next at
most, is known to it by its latest export or by one equal to it. -/
theorem latest_export_told {topology : Topology} (hbuilt : topology.Built) (program : Expr)
    (pacing : Pacing) {acts : List Act}
    (hsteady : (simulation program topology pacing).isSteady acts) (a b : DeviceId) :
    let start := simulation program topology pacing
    ∀ latest report, (successes (start.history acts) a).head? = some latest →
    latest.report? = some report →
    (∀ r ∈ (successes (start.history acts) a).take latest.node.device.pacing.period,
      r.before.Reaches a b) →
    ∃ node message, (start.run acts).nodes.find? b = some node ∧
      ((start.run acts).inbox node).latest? a (start.run acts).now = some message ∧
      message.sender = a ∧
      (message.exported = report.exported ∨ message.exported.equals report.exported) := by
  intro start latest report hlatest hreport hreaches
  have htelling := (Telling.simulation hbuilt program pacing a b).run hsteady
  rw [List.nil_append] at htelling
  have hrecord : latest ∈ roundsOf (start.history acts) a :=
    (List.mem_filter.mp (List.mem_reverse.mp (List.mem_of_mem_head? hlatest))).1
  have hpresent := htelling.behind latest (List.mem_filter.mp hrecord).1
  rw [of_decide_eq_true (List.mem_filter.mp hrecord).2] at hpresent
  obtain ⟨teller, hteller⟩ := Option.isSome_iff_exists.mp hpresent
  cases htelling.told teller hteller with
  | silent _ hnothing =>
      rw [hnothing] at hlatest
      cases hlatest
  | spoken _ hfirst hpaced hreported hsame horigin hrecent hreceived =>
      rw [hlatest] at hfirst
      cases hfirst
      rw [hreport] at hreported
      cases hreported
      -- The round that handed the export over is among those in which `b` was reached.
      rw [← hpaced] at hrecent
      rw [← List.getElem?_take_of_lt hrecent] at horigin
      obtain ⟨node, message, hnode, hheld, hsender, hexported⟩ :=
        hreceived (hreaches _ (List.mem_of_getElem? horigin))
      refine ⟨node, message, hnode, ?_, hsender, ?_⟩
      · exact latest?_of_held htelling.orderly hheld (Nat.le_add_right _ _)
      · rw [hexported]
        exact hsame

/-! ## A device that says nothing new -/

/-- A device is added to a line. The first one does two rounds linked to it, the second of
which is not sent, and is then cut off. -/
def quietLine : List Act :=
  [.join ⟨"new"⟩ (.literal .unit) default, .addToTopology ⟨"new"⟩, .link ⟨"d0"⟩ ⟨"new"⟩,
    .step ⟨"d0"⟩, .step ⟨"d0"⟩, .unlink ⟨"d0"⟩ ⟨"new"⟩]

theorem quietLine_told : ∃ node message,
    ((simulation (.literal .unit) (.line 2) default).run quietLine).nodes.find? ⟨"new"⟩ =
        some node ∧
      (((simulation (.literal .unit) (.line 2) default).run quietLine).inbox node).latest? ⟨"d0"⟩
        ((simulation (.literal .unit) (.line 2) default).run quietLine).now = some message ∧
      message.sender = ⟨"d0"⟩ ∧ (message.exported = .ofPuts [] .unit ∨
        message.exported.equals (.ofPuts [] .unit)) := by
  have hsteady : (simulation (.literal .unit) (.line 2) default).isSteady quietLine := by
    decide +kernel
  refine latest_export_told (.line 2) (.literal .unit) default hsteady ⟨"d0"⟩ ⟨"new"⟩ _ _ rfl rfl ?_
  decide +kernel

end FieldCalculus.Network
