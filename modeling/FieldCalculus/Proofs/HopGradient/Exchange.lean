import FieldCalculus.Proofs.Distance
import FieldCalculus.Proofs.HopGradient.Round
import FieldCalculus.Proofs.Simulation

/-!
What the devices of a hop gradient remember of their last round and know of each other. A
device that keeps quiet has nothing new to say, so that after every completed round the
export taken last is the one of that round.
-/

namespace FieldCalculus.HopGradient

/-! ## Exports -/

/-- What a device can send. -/
inductive Sent : Export → Prop where
  | first (value : ℕ∞) : Sent (firstExport value)
  | later (value heard told : ℕ∞) : Sent (laterExport value heard told)

section Lookup

variable (value heard told : ℕ∞)

theorem value_firstExport : (firstExport value).get? valuePath = some (hopValue value) := rfl

theorem told_firstExport : (firstExport value).get? toldPath = none := rfl

theorem value_laterExport :
    (laterExport value heard told).get? valuePath = some (hopValue value) := rfl

theorem told_laterExport :
    (laterExport value heard told).get? toldPath = some (hopValue told) := rfl

end Lookup

theorem hopValue_eq_of_equals {a b : ℕ∞} (h : (hopValue a).equals (hopValue b)) :
    hopValue a = hopValue b :=
  congrArg Value.number (Number.eq_of_equals_ofHops h)

namespace Sent

variable {e other : Export}

theorem value (h : Sent e) : ∃ hops, e.get? valuePath = some (hopValue hops) := by
  cases h with
  | first value => exact ⟨value, value_firstExport value⟩
  | later value heard told => exact ⟨value, value_laterExport value heard told⟩

theorem told (h : Sent e) {v : Value} (hv : e.get? toldPath = some v) :
    ∃ hops, v = hopValue hops := by
  cases h with
  | first value =>
      rw [told_firstExport] at hv
      cases hv
  | later value heard told =>
      rw [told_laterExport] at hv
      cases hv
      exact ⟨told, rfl⟩

/-- A device takes part in the exchange once it tells its last value. -/
theorem contains_foldPath (h : Sent e) : e.contains foldPath = (e.get? toldPath).isSome := by
  cases h with
  | first value => rfl
  | later value heard told => rfl

/-- The state takes over the value. -/
theorem absorb (h : Sent e) (state : DeviceState) :
    (state.absorb e).get? valuePath = e.get? valuePath := by
  have hput : ∀ hops, (state.values.insertAll [(valuePath, hopValue hops)]).find? valuePath =
      some (hopValue hops) := fun hops => Dict.find?_insert_self _ _ _
  cases h with
  | first value => exact hput value
  | later value heard told => exact hput value

/-- Nothing but numbers of hops is sent. -/
theorem hops (h : Sent e) {entry : Path × Value} (hentry : entry ∈ e.toList) :
    ∃ hops, entry.2 = hopValue hops := by
  cases h with
  | first value =>
      rcases Export.mem_toList_ofPuts hentry with hroot | hput
      · exact ⟨value, hroot⟩
      · exact ⟨value, congrArg Prod.snd (List.mem_singleton.mp hput)⟩
  | later value heard told =>
      rcases Export.mem_toList_ofPuts hentry with hroot | hput
      · exact ⟨value, hroot⟩
      · simp only [List.mem_cons, List.not_mem_nil, or_false] at hput
        rcases hput with rfl | rfl | rfl
        · exact ⟨told, rfl⟩
        · exact ⟨heard, rfl⟩
        · exact ⟨value, rfl⟩

/-- Exports that programs take for equal are the same. -/
theorem eq_of_equals (h : Sent e) (hother : Sent other) (heq : e.equals other) : e = other := by
  refine Export.eq_of_equals ?_ heq
  intro x hx y hy hequal
  obtain ⟨_, hfirst⟩ := h.hops hx
  obtain ⟨_, hsecond⟩ := hother.hops hy
  rw [hfirst, hsecond] at hequal ⊢
  exact hopValue_eq_of_equals hequal

end Sent

/-! ## Devices and tables -/

/-- The export that the exchange took last from a device. -/
def latest (net : Network) (id : DeviceId) : Option Export :=
  (net.nodes.find? id).bind fun node => node.device.lastExport

/-- A device remembers the value of the round whose export was taken last. -/
structure Coherent (source : String) (pacing : Pacing) (device : Device) : Prop where
  runs : device.program = Library.hopGradient source
  paced : device.pacing = pacing
  remembered : device.state.get? valuePath = device.lastExport.bind fun e => e.get? valuePath
  quiet : device.quietRounds < pacing.period

/-- What holds of every simulation of the hop gradient. -/
structure Sound (source : String) (pacing : Pacing) (net : Network) : Prop where
  wired : net.Wired
  built : net.topology.Built
  coherent : ∀ id node, net.nodes.find? id = some node → Coherent source pacing node.device
  sent : ∀ id e, latest net id = some e → Sent e
  received : ∀ id sender e, net.received id sender = some e →
    Sent e ∧ (net.nodes.find? sender).isSome
  value : ∀ id, net.recorder.value? id = (latest net id).bind fun e => e.get? valuePath

variable {source : String} {pacing : Pacing} {net next : Network}

theorem period_pos (pacing : Pacing) : 0 < pacing.period := by
  unfold Pacing.period
  omega

theorem latest_eq {id : DeviceId} {node : Node} (hnode : net.nodes.find? id = some node) :
    latest net id = node.device.lastExport := by
  rw [latest, hnode, Option.bind_some]

theorem latest_fresh {program : Expr} (h : net.Fresh program pacing) (id : DeviceId) :
    latest net id = none := by
  unfold latest
  cases hnode : net.nodes.find? id with
  | none => rfl
  | some node =>
      rw [Option.bind_some, h.device id node hnode]
      rfl

/-- A simulation begins soundly: nobody has sent anything. -/
theorem sound_simulation {topology : Topology} (hbuilt : topology.Built) (source : String)
    (pacing : Pacing) :
    Sound source pacing (.simulation (Library.hopGradient source) topology pacing) := by
  have hfresh := Network.Fresh.simulation (Library.hopGradient source) topology pacing
  have hnone := latest_fresh hfresh
  constructor
  case wired => exact hfresh.wired
  case built =>
    rw [Network.topology_simulation]
    exact hbuilt
  case coherent =>
    intro id node hnode
    rw [hfresh.device id node hnode]
    exact ⟨rfl, rfl, rfl, period_pos pacing⟩
  case sent =>
    intro id e he
    rw [hnone] at he
    cases he
  case received =>
    intro id sender e he
    rw [hfresh.received] at he
    cases he
  case value =>
    intro id
    rw [hnone, hfresh.recorder]
    rfl

theorem latest_edited (h : net.Edited next) (id : DeviceId) : latest next id = latest net id := by
  have hdevice := congrArg (Option.bind · Device.lastExport) (h.devices id)
  simp only [Option.bind_map] at hdevice
  exact hdevice

theorem Sound.edited (h : Sound source pacing net) (hedited : net.Edited next) :
    Sound source pacing next := by
  constructor
  case wired => exact hedited.wired
  case built => exact hedited.built h.built
  case coherent =>
    intro id node hnode
    have hdevice := hedited.devices id
    rw [hnode, Option.map_some, eq_comm, Option.map_eq_some_iff] at hdevice
    obtain ⟨before, hbefore, heq⟩ := hdevice
    rw [← heq]
    exact h.coherent id before hbefore
  case sent =>
    intro id e he
    rw [latest_edited hedited] at he
    exact h.sent id e he
  case received =>
    intro id sender e he
    rw [hedited.received] at he
    rw [hedited.isSome]
    exact h.received id sender e he
  case value =>
    intro id
    rw [hedited.recorder, latest_edited hedited]
    exact h.value id

/-! ## Rounds -/

/-- What a completed round sends, given that the last value is `near` and that what each
neighbor told is `known`. -/
inductive Outcome (net : Network) (id : DeviceId) (isSource : Bool) (near : ℕ∞ → Prop)
    (known : DeviceId → ℕ∞ → Prop) : ℕ∞ → Export → Prop where
  | first (fresh : latest net id = none) :
      Outcome net id isSource near known (if isSource then 0 else ⊤)
        (firstExport (if isSource then 0 else ⊤))
  | later {heard last : ℕ∞} (remembered : (latest net id).isSome) (lastNear : near last)
      (above : ∀ low, (∀ y hops, net.graph.Adj id y → known y hops → low ≤ hops + 1) → low ≤ heard)
      (below : ∀ y e v, net.graph.Adj id y → net.received id y = some e →
        e.get? toldPath = some v → ∃ hops, known y hops ∧ heard ≤ hops + 1) :
      Outcome net id isSource near known (if isSource then 0 else heard)
        (laterExport (if isSource then 0 else heard) heard last)

namespace Outcome

variable {id : DeviceId} {isSource : Bool} {near : ℕ∞ → Prop} {known : DeviceId → ℕ∞ → Prop}
  {value : ℕ∞} {e : Export}

theorem sent (h : Outcome net id isSource near known value e) : Sent e := by
  cases h with
  | first _ => exact .first _
  | later _ _ _ _ => exact .later _ _ _

theorem value_eq (h : Outcome net id isSource near known value e) :
    e.get? valuePath = some (hopValue value) := by
  cases h with
  | first _ => exact value_firstExport _
  | later _ _ _ _ => exact value_laterExport _ _ _

end Outcome

namespace Sound

variable {id : DeviceId} {node : Node}

theorem find?_inputsOf (h : Sound source pacing net) (hnode : net.nodes.find? id = some node)
    (y : DeviceId) (e : Export) : (net.inputsOf node).neighbors.find? y = some e ↔
      net.graph.Adj id y ∧ net.received id y = some e :=
  h.wired.find?_inputsOf h.built hnode (fun y e he => (h.received id y e he).2) y e

/-- The neighbors that take part in a round are those that have told a number of hops. -/
theorem exists_told (h : Sound source pacing net) (hnode : net.nodes.find? id = some node)
    (known : DeviceId → ℕ∞ → Prop)
    (hknown : ∀ y e v, net.graph.Adj id y → net.received id y = some e →
      e.get? toldPath = some v → ∃ hops, v = hopValue hops ∧ known y hops) :
    ∃ told : List ℕ∞,
      List.Forall₂ (fun entry hops => entry.2.get? toldPath = some (hopValue hops))
        ((net.inputsOf node).neighbors.entries.filter fun entry =>
          entry.1 ≠ (net.inputsOf node).device && entry.2.contains foldPath) told ∧
      (∀ hops ∈ told, ∃ y, net.graph.Adj id y ∧ known y hops) ∧
      ∀ y e v, net.graph.Adj id y → net.received id y = some e → e.get? toldPath = some v →
        ∃ hops ∈ told, known y hops := by
  have hdevice : (net.inputsOf node).device = id := h.wired.device id node hnode
  have htells : ∀ y e, (net.inputsOf node).neighbors.find? y = some e → e.contains foldPath →
      ∃ hops, e.get? toldPath = some (hopValue hops) ∧ known y hops := by
    intro y e hfound htakes
    obtain ⟨hadj, hreceived⟩ := (h.find?_inputsOf hnode y e).mp hfound
    rw [(h.received id y e hreceived).1.contains_foldPath] at htakes
    obtain ⟨v, hv⟩ := Option.isSome_iff_exists.mp htakes
    obtain ⟨hops, rfl, hhops⟩ := hknown y e v hadj hreceived hv
    exact ⟨hops, hv, hhops⟩
  obtain ⟨told, htold, hfrom, hall⟩ := RoundInputs.exists_told htells
  refine ⟨told, htold.imp fun _ _ hentry => hentry.1, ?_, ?_⟩
  · intro hops hhops
    obtain ⟨y, e, hfound, -, hy⟩ := hfrom hops hhops
    exact ⟨y, ((h.find?_inputsOf hnode y e).mp hfound).1, hy⟩
  · intro y e v hadj hreceived hv
    have htakes : e.contains foldPath := by
      rw [(h.received id y e hreceived).1.contains_foldPath, hv]
      rfl
    obtain ⟨hops, hhops, -, hy⟩ := hall y e ((h.find?_inputsOf hnode y e).mpr ⟨hadj, hreceived⟩)
      (hdevice ▸ hadj.ne') htakes
    exact ⟨hops, hhops, hy⟩

/-- A device whose source sensor reads a truth value completes its round. -/
theorem round (h : Sound source pacing net) (hnode : net.nodes.find? id = some node)
    {isSource : Bool} (hreads : net.reads id source = some (.bool isSource))
    (near : ℕ∞ → Prop) (known : DeviceId → ℕ∞ → Prop)
    (hnear : ∀ e, latest net id = some e →
      ∃ hops, e.get? valuePath = some (hopValue hops) ∧ near hops)
    (hknown : ∀ y e v, net.graph.Adj id y → net.received id y = some e →
      e.get? toldPath = some v → ∃ hops, v = hopValue hops ∧ known y hops) :
    ∃ value e, evaluate node.device.program (net.inputsOf node) = .ok ⟨hopValue value, e⟩ ∧
      Outcome net id isSource near known value e := by
  have hcoherent := h.coherent id node hnode
  have hsource : (net.inputsOf node).sensors.sense source = some (.bool isSource) := by
    rw [Network.reads, hnode] at hreads
    exact hreads
  have hlatest := latest_eq hnode
  rw [hcoherent.runs]
  cases hlast : node.device.lastExport with
  | none =>
      have hfresh : (net.inputsOf node).state.get? valuePath = none := by
        change node.device.state.get? valuePath = none
        rw [hcoherent.remembered, hlast]
        rfl
      exact ⟨_, _, evaluate_first hsource hfresh, .first (hlatest.trans hlast)⟩
  | some lastExport =>
      obtain ⟨last, hvalue, hlastNear⟩ := hnear lastExport (hlatest.trans hlast)
      have hstate : (net.inputsOf node).state.get? valuePath = some (hopValue last) := by
        change node.device.state.get? valuePath = _
        rw [hcoherent.remembered, hlast]
        exact hvalue
      obtain ⟨told, hall, habove, hbelow⟩ := h.exists_told hnode known hknown
      refine ⟨_, _, evaluate_later hsource hstate hall, .later ?_ hlastNear ?_ ?_⟩
      · rw [hlatest, hlast]
        rfl
      · intro low hlow
        refine le_countOn ?_
        intro hops hhops
        obtain ⟨y, hadj, hy⟩ := habove hops hhops
        exact hlow y hops hadj hy
      · intro y e v hadj hreceived hv
        obtain ⟨hops, hhops, hy⟩ := hbelow y e v hadj hreceived hv
        exact ⟨hops, hy, countOn_le hhops⟩

end Sound

/-! ## Steps -/

/-- For how many rounds a device has kept quiet. -/
def quietFor (net : Network) (id : DeviceId) : Nat :=
  ((net.nodes.find? id).map fun node => node.device.quietRounds).getD 0

/-- A device completed a round and either kept quiet, because its export was the last one
again, or told all its neighbors. -/
structure Completed (net : Network) (id : DeviceId) (e : Export) (next : Network) : Prop where
  latest : ∀ other, latest next other = if other = id then some e else latest net other
  quietFor : ∀ other, other ≠ id → quietFor next other = quietFor net other
  spread : ((∀ other sender, next.received other sender = net.received other sender) ∧
      HopGradient.latest net id = some e ∧
        HopGradient.quietFor next id = HopGradient.quietFor net id + 1) ∨
    ∀ other sender, next.received other sender =
      if sender = id ∧ net.graph.Adj id other then some e else net.received other sender

section Stepped

variable {id : DeviceId} {node : Node} {device : Device} {sent : Option Export}
  {value : Option Value}

theorem latest_stepped (h : net.Stepped id node device sent value next) (other : DeviceId) :
    latest next other = if other = id then device.lastExport else latest net other := by
  unfold latest
  rw [h.nodes]
  split
  · rfl
  · rfl

theorem quietFor_stepped (h : net.Stepped id node device sent value next) (other : DeviceId) :
    quietFor next other = if other = id then device.quietRounds else quietFor net other := by
  unfold quietFor
  rw [h.nodes]
  split
  · rfl
  · rfl

/-- What is received after a step, by the links of the devices that are there. -/
theorem received_stepped (h : net.Stepped id node device sent value next)
    (hbuilt : net.topology.Built) (hnode : net.nodes.find? id = some node)
    (other sender : DeviceId) :
    next.received other sender =
      if sender = id ∧ net.graph.Adj id other then sent.or (net.received other sender)
      else net.received other sender := by
  have hsame : (sender = id ∧ net.topology.Linked id other ∧ other ≠ id ∧
      (net.nodes.find? other).isSome) ↔ sender = id ∧ net.graph.Adj id other := by
    rw [Network.adj_iff hbuilt, hnode]
    constructor
    · rintro ⟨hsender, hlinked, -, hpresent⟩
      exact ⟨hsender, rfl, hpresent, hlinked⟩
    · rintro ⟨hsender, -, hpresent, hlinked⟩
      refine ⟨hsender, hlinked, ?_, hpresent⟩
      rintro rfl
      exact hbuilt.irrefl hlinked
  rw [h.received]
  simp only [hsame]

/-- A step whose round succeeded, by what became of the device. -/
structure Succeeded (net : Network) (id : DeviceId) (node : Node) (result : Evaluation)
    (device : Device) (sent : Option Export) (next : Network) : Prop where
  stepped : net.Stepped id node device sent (some result.value) next
  same : node.device.Same device
  state : device.state = node.device.state.absorb result.exported
  lastExport : device.lastExport = some result.exported
  quiet : device.quietRounds < node.device.pacing.period
  only : ∀ e, sent = some e → e = result.exported
  completed : Completed net id result.exported next

/-- A round whose evaluation succeeds either repeats the export taken last or tells a new one to
all neighbors, as long as the programs' equality tells the exports of the device apart. -/
theorem exists_succeeded {result : Evaluation} (h : net.Wired) (hbuilt : net.topology.Built)
    (hnode : net.nodes.find? id = some node)
    (hround : evaluate node.device.program (net.inputsOf node) = .ok result)
    (hrigid : ∀ last, latest net id = some last → last.equals result.exported →
      last = result.exported) :
    ∃ device sent, Succeeded net id node result device sent (net.step id).1 := by
  have hquietFor : quietFor net id = node.device.quietRounds := by
    rw [quietFor, hnode]
    rfl
  cases h.step hnode with
  | failed houtcome _ _ _ _ _ =>
      rw [hround] at houtcome
      cases houtcome
  | @quiet _ device houtcome hsame hstate hunchanged hnotDue hlast hquiet hstepped =>
      rw [hround] at houtcome
      cases houtcome
      have hagain : node.device.lastExport = some result.exported := by
        cases hbefore : node.device.lastExport with
        | none =>
            rw [Device.isChanged, hbefore] at hunchanged
            cases hunchanged
        | some last =>
            rw [Device.isChanged, hbefore, Bool.not_eq_false'] at hunchanged
            rw [hrigid last ((latest_eq hnode).trans hbefore) hunchanged]
      rw [hagain] at hlast
      refine ⟨device, none, hstepped, hsame, hstate, hlast, ?_, ?_, ?_⟩
      · rw [Device.isDue, decide_eq_false_iff_not] at hnotDue
        omega
      · rintro _ ⟨⟩
      · constructor
        case latest =>
          intro other
          rw [latest_stepped hstepped, hlast]
        case quietFor =>
          intro other hne
          rw [quietFor_stepped hstepped, if_neg hne]
        case spread =>
          refine Or.inl ⟨?_, (latest_eq hnode).trans hagain, ?_⟩
          · intro other sender
            rw [hstepped.received, Option.none_or, ite_self]
          · rw [quietFor_stepped hstepped, if_pos rfl, hquiet, hquietFor]
  | @published _ device houtcome hsame hstate hlast hquiet hstepped =>
      rw [hround] at houtcome
      cases houtcome
      refine ⟨device, _, hstepped, hsame, hstate, hlast, ?_, ?_, ?_⟩
      · rw [hquiet]
        exact period_pos _
      · rintro _ ⟨⟩
        rfl
      · constructor
        case latest =>
          intro other
          rw [latest_stepped hstepped, hlast]
        case quietFor =>
          intro other hne
          rw [quietFor_stepped hstepped, if_neg hne]
        case spread =>
          refine Or.inr fun other sender => ?_
          rw [received_stepped hstepped hbuilt hnode, Option.some_or]

/-- Soundness after a step, from that of the device and of what it sent. -/
theorem sound_stepped (h : Sound source pacing net) (hnode : net.nodes.find? id = some node)
    (hstepped : net.Stepped id node device sent value next)
    (hdevice : Coherent source pacing device) (hlatest : ∀ e, device.lastExport = some e → Sent e)
    (hsent : ∀ e, sent = some e → Sent e)
    (hvalue : value.or (net.recorder.value? id) =
      device.lastExport.bind fun e => e.get? valuePath) : Sound source pacing next := by
  constructor
  case wired => exact hstepped.wired
  case built =>
    rw [hstepped.topology]
    exact h.built
  case coherent =>
    intro other x hx
    rw [hstepped.nodes] at hx
    split at hx
    · cases hx
      exact hdevice
    · exact h.coherent other x hx
  case sent =>
    intro other e he
    rw [latest_stepped hstepped] at he
    split at he
    · exact hlatest e he
    · exact h.sent other e he
  case received =>
    intro other sender e he
    rw [hstepped.isSome hnode]
    rw [received_stepped hstepped h.built hnode] at he
    split at he
    · rename_i hto
      rw [Option.or_eq_some_iff] at he
      rcases he with he | ⟨-, he⟩
      · refine ⟨hsent e he, ?_⟩
        rw [hto.1, hnode]
        rfl
      · exact h.received other sender e he
    · exact h.received other sender e he
  case value =>
    intro other
    rw [hstepped.value, latest_stepped hstepped]
    split
    · rename_i heq
      rw [heq]
      exact hvalue
    · exact h.value other

end Stepped

namespace Sound

variable {id : DeviceId} {node : Node}

theorem coherent_of_same (h : Sound source pacing net) (hnode : net.nodes.find? id = some node)
    {device : Device} (hsame : node.device.Same device)
    (hremembered : device.state.get? valuePath =
      device.lastExport.bind fun e => e.get? valuePath)
    (hquiet : device.quietRounds < pacing.period) : Coherent source pacing device := by
  have hbefore := h.coherent id node hnode
  exact ⟨hsame.program.trans hbefore.runs, hsame.pacing.trans hbefore.paced, hremembered, hquiet⟩

/-- What a round that evaluated does to the network. -/
theorem completes (h : Sound source pacing net) (hnode : net.nodes.find? id = some node)
    {v : Value} {e : Export}
    (hround : evaluate node.device.program (net.inputsOf node) = .ok ⟨v, e⟩)
    (hsent : Sent e) (hv : e.get? valuePath = some v) :
    Sound source pacing (net.step id).1 ∧ Completed net id e (net.step id).1 := by
  obtain ⟨device, sent, hsucceeded⟩ := exists_succeeded h.wired h.built hnode hround
    fun last hlast hequal => (h.sent id last hlast).eq_of_equals hsent hequal
  have hlast : device.lastExport = some e := hsucceeded.lastExport
  refine ⟨?_, hsucceeded.completed⟩
  refine sound_stepped h hnode hsucceeded.stepped
    (h.coherent_of_same hnode hsucceeded.same ?_ ?_) ?_ ?_ ?_
  · rw [hsucceeded.state, hsent.absorb, hlast]
    rfl
  · rw [← (h.coherent id node hnode).paced]
    exact hsucceeded.quiet
  · intro other hother
    rw [hlast] at hother
    cases hother
    exact hsent
  · intro other hother
    rw [hsucceeded.only other hother]
    exact hsent
  · rw [hlast, Option.some_or]
    exact hv.symm

theorem completes_of_reads (h : Sound source pacing net)
    (hnode : net.nodes.find? id = some node) {isSource : Bool}
    (hreads : net.reads id source = some (.bool isSource)) :
    ∃ e, Sound source pacing (net.step id).1 ∧ Completed net id e (net.step id).1 := by
  have hnear : ∀ e, latest net id = some e →
      ∃ hops, e.get? valuePath = some (hopValue hops) ∧ True := by
    intro e he
    obtain ⟨hops, hhops⟩ := (h.sent id e he).value
    exact ⟨hops, hhops, trivial⟩
  have hknown : ∀ y e v, net.graph.Adj id y → net.received id y = some e →
      e.get? toldPath = some v → ∃ hops, v = hopValue hops ∧ True := by
    intro y e v _ hreceived hv
    obtain ⟨hops, hhops⟩ := (h.received id y e hreceived).1.told hv
    exact ⟨hops, hhops, trivial⟩
  obtain ⟨value, e, hresult, houtcome⟩ := h.round hnode hreads _ _ hnear hknown
  exact ⟨e, h.completes hnode hresult houtcome.sent houtcome.value_eq⟩

/-- Soundness is kept by every step, completed or not. -/
theorem step (h : Sound source pacing net) (id : DeviceId) :
    Sound source pacing (net.step id).1 := by
  cases hnode : net.nodes.find? id with
  | none =>
      rw [Network.step_unknown hnode]
      exact h
  | some node =>
      have hbefore := h.coherent id node hnode
      cases hround : evaluate node.device.program (net.inputsOf node) with
      | error error =>
          cases h.wired.step hnode with
          | failed _ hsame hstate hlast hquiet hstepped =>
              refine sound_stepped h hnode hstepped (h.coherent_of_same hnode hsame ?_ ?_) ?_ ?_ ?_
              · rw [hstate, hlast]
                exact hbefore.remembered
              · rw [hquiet]
                exact hbefore.quiet
              · intro e he
                rw [hlast] at he
                exact h.sent id e ((latest_eq hnode).trans he)
              · intro e he
                cases he
              · rw [Option.none_or, hlast, h.value, latest_eq hnode]
          | quiet houtcome _ _ _ _ _ _ _ =>
              rw [hround] at houtcome
              cases houtcome
          | published houtcome _ _ _ _ _ =>
              rw [hround] at houtcome
              cases houtcome
      | ok result =>
          have hprogram := hround
          rw [hbefore.runs] at hprogram
          obtain ⟨isSource, hsource⟩ := sense_of_evaluate hprogram
          have hreads : net.reads id source = some (.bool isSource) := by
            rw [Network.reads, hnode]
            exact hsource
          obtain ⟨e, hsound, -⟩ := h.completes_of_reads hnode hreads
          exact hsound

theorem react (h : Sound source pacing net) (event : Network.Event) :
    Sound source pacing (net.react event) := by
  rcases h.wired.react event with ⟨id, heq⟩ | hedited
  · rw [heq]
    exact h.step id
  · exact h.edited hedited

end Sound

end FieldCalculus.HopGradient
