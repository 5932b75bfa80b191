import FieldCalculus.Proofs.HopGradient.Exchange

/-!
How the hop gradient approaches the hop distances. The steps are counted in stages, in each of
which every device steps. With each second stage the values are right for one hop more: what a
device tells is the value of its last round, and so one stage behind the value it has.
-/

namespace FieldCalculus.HopGradient

/-! ## What a value has to be at a stage -/

/-- At a stage, a value is at least the distance as far as values are `trusted` or have risen,
and at most the distance where the sources have been heard of. -/
structure Near (trusted : Prop) (far : ℕ∞) (stage : ℕ) (hops : ℕ∞) : Prop where
  low : ∀ k : ℕ, trusted ∨ 2 * k ≤ stage + 1 → k ≤ far → k ≤ hops
  high : ∀ d : ℕ, far = d → 2 * d + 1 ≤ stage → hops ≤ d

namespace Near

variable {trusted : Prop} {far hops : ℕ∞} {stage earlier : ℕ}

theorem mono (h : Near trusted far stage hops) (hle : earlier ≤ stage) :
    Near trusted far earlier hops := by
  constructor
  · intro k hk
    apply h.low k
    rcases hk with htrusted | hk
    · exact Or.inl htrusted
    · right
      omega
  · intro d hd hstage
    apply h.high d hd
    omega

/-- Zero is right for a source at every stage. -/
theorem source (stage : ℕ) : Near trusted 0 stage 0 := by
  constructor
  · intro k _ hk
    exact hk
  · intro d _ _
    exact bot_le

/-- Away from the sources, a device may know of none in its first round. -/
theorem unheard (h : far ≠ 0) : Near trusted far 1 ⊤ := by
  constructor
  · intro k _ _
    exact le_top
  · intro d hd hstage
    have hzero : d = 0 := by omega
    rw [hzero, Nat.cast_zero] at hd
    exact absurd hd h

/-- Without trust, everything is right before the first stage. -/
theorem any (hops : ℕ∞) : Near False far 0 hops := by
  constructor
  · intro k hk _
    have hzero : k = 0 := by
      rcases hk with hfalse | hk
      · exact hfalse.elim
      · omega
    rw [hzero, Nat.cast_zero]
    exact bot_le
  · intro d _ hstage
    omega

theorem eq {d : ℕ} (h : Near trusted d stage hops) (hlow : trusted ∨ 2 * d ≤ stage + 1)
    (hhigh : 2 * d + 1 ≤ stage) : hops = d :=
  le_antisymm (h.high d rfl hhigh) (h.low d hlow le_rfl)

theorem le_of_trusted (h : Near True far stage hops) : far ≤ hops := by
  refine ENat.forall_natCast_le_iff_le.mp ?_
  intro k hk
  exact h.low k (Or.inl trivial) hk

end Near

/-- What the export taken last from a device has to be at a stage. -/
structure Reached (trusted : Prop) (far : ℕ∞) (stage : ℕ) (taken : Option Export) : Prop where
  started : 1 ≤ stage → taken.isSome
  value : ∀ e, taken = some e →
    ∃ hops, e.get? valuePath = some (hopValue hops) ∧ Near trusted far stage hops
  told : ∀ e v, taken = some e → e.get? toldPath = some v →
    ∃ hops, v = hopValue hops ∧ Near trusted far (stage - 1) hops
  telling : ∀ e, taken = some e → 2 ≤ stage → (e.get? toldPath).isSome

namespace Reached

variable {trusted : Prop} {far : ℕ∞} {stage earlier : ℕ} {taken : Option Export}

theorem mono (h : Reached trusted far stage taken) (hle : earlier ≤ stage) :
    Reached trusted far earlier taken := by
  constructor
  case started =>
    intro hstage
    apply h.started
    omega
  case value =>
    intro e he
    obtain ⟨hops, hvalue, hnear⟩ := h.value e he
    exact ⟨hops, hvalue, hnear.mono hle⟩
  case told =>
    intro e v he hv
    obtain ⟨hops, htold, hnear⟩ := h.told e v he hv
    refine ⟨hops, htold, hnear.mono ?_⟩
    omega
  case telling =>
    intro e he hstage
    apply h.telling e he
    omega

/-- A device that has not sent anything has reached the beginning. -/
theorem none : Reached trusted far 0 none := by
  constructor <;> simp

/-- Whatever a device has sent will do to begin with. -/
theorem any (h : ∀ e, taken = some e → Sent e) : Reached False far 0 taken := by
  constructor
  case started =>
    intro hstage
    omega
  case value =>
    intro e he
    obtain ⟨hops, hvalue⟩ := (h e he).value
    exact ⟨hops, hvalue, .any hops⟩
  case told =>
    intro e v he hv
    obtain ⟨hops, htold⟩ := (h e he).told hv
    exact ⟨hops, htold, .any hops⟩
  case telling =>
    intro e _ hstage
    omega

end Reached

/-! ## Networks that stay as they are -/

/-- Devices, links and sources stay as they are. -/
structure Steady (source : String) (devices : List DeviceId) (far : DeviceId → ℕ∞)
    (net : Network) : Prop where
  present : ∀ id, (net.nodes.find? id).isSome ↔ id ∈ devices
  reads : ∀ id ∈ devices, ∃ isSource, net.reads id source = some (.bool isSource)
  far : ∀ id, net.distance source id = far id

/-- What a device told last is known to its neighbors. -/
def Heard (net : Network) (id : DeviceId) : Prop :=
  ∀ neighbor, net.graph.Adj id neighbor → net.received neighbor id = latest net id

variable {source : String} {pacing : Pacing} {devices : List DeviceId} {far : DeviceId → ℕ∞}
  {net next : Network} {id : DeviceId}

theorem Steady.step (h : Steady source devices far net) (hsound : Sound source pacing net)
    (id : DeviceId) : Steady source devices far (net.step id).1 := by
  obtain ⟨hgraph, hreads, hpresent⟩ := hsound.wired.step_surroundings id
  constructor
  case present =>
    intro other
    rw [hpresent]
    exact h.present other
  case reads =>
    intro other hother
    rw [hreads]
    exact h.reads other hother
  case far =>
    intro other
    rw [← h.far other]
    unfold Network.distance Network.sources
    simp only [hgraph, hreads]

theorem Heard.completed {e : Export} (h : Completed net id e next) (hgraph : next.graph = net.graph)
    {other : DeviceId} (hheard : Heard net other) : Heard next other := by
  intro neighbor hadj
  rw [hgraph] at hadj
  rw [h.latest]
  rcases h.spread with ⟨hreceived, hlast, -⟩ | hreceived
  · rw [hreceived, hheard neighbor hadj]
    split
    · rename_i heq
      rw [heq, hlast]
    · rfl
  · rw [hreceived]
    by_cases heq : other = id
    · rw [heq] at hadj
      rw [if_pos ⟨heq, hadj⟩, if_pos heq]
    · rw [if_neg fun hboth => heq hboth.1, if_neg heq]
      exact hheard neighbor hadj

/-! ## Until everyone has been heard -/

/-- So many stages later, a device has been heard or has kept quiet in all of them. -/
structure Quieting (source : String) (pacing : Pacing) (devices : List DeviceId)
    (far : DeviceId → ℕ∞) (stage : ℕ) (net : Network) : Prop where
  sound : Sound source pacing net
  steady : Steady source devices far net
  heard : ∀ id ∈ devices, Heard net id ∨ stage ≤ quietFor net id

namespace Quieting

variable {stage : ℕ}

/-- A step of a device counts one stage up for it and changes nothing for the others. -/
theorem heard_step (h : Quieting source pacing devices far stage net) (id other : DeviceId)
    (hother : other ∈ devices) {count : ℕ} (hcount : Heard net other ∨ count ≤ quietFor net other) :
    Heard (net.step id).1 other ∨
      (if other = id then count + 1 else count) ≤ quietFor (net.step id).1 other := by
  obtain ⟨hgraph, -, -⟩ := h.sound.wired.step_surroundings id
  cases hnode : net.nodes.find? id with
  | none =>
      have hne : other ≠ id := by
        rintro rfl
        have hpresent := (h.steady.present other).mpr hother
        rw [hnode] at hpresent
        cases hpresent
      rw [Network.step_unknown hnode, if_neg hne]
      exact hcount
  | some node =>
      have hid : id ∈ devices := (h.steady.present id).mp (by rw [hnode]; rfl)
      obtain ⟨isSource, hreads⟩ := h.steady.reads id hid
      obtain ⟨e, -, hcompleted⟩ := h.sound.completes_of_reads hnode hreads
      rcases hcount with hheard | hcount
      · exact Or.inl (hheard.completed hcompleted hgraph)
      · by_cases heq : other = id
        · subst heq
          rw [if_pos rfl]
          rcases hcompleted.spread with ⟨-, -, hquiet⟩ | hreceived
          · right
            rw [hquiet]
            omega
          · left
            intro neighbor hadj
            rw [hgraph] at hadj
            rw [hreceived, hcompleted.latest, if_pos ⟨rfl, hadj⟩, if_pos rfl]
        · rw [if_neg heq, hcompleted.quietFor other heq]
          exact Or.inr hcount

theorem step (h : Quieting source pacing devices far stage net) (id : DeviceId) :
    Quieting source pacing devices far stage (net.step id).1 := by
  refine ⟨h.sound.step id, h.steady.step h.sound id, ?_⟩
  intro other hother
  refine (h.heard_step id other hother (h.heard other hother)).imp_right ?_
  intro hcount
  split at hcount <;> omega

theorem segment (h : Quieting source pacing devices far stage net) {segment : List DeviceId}
    (hall : ∀ id ∈ devices, id ∈ segment) :
    Quieting source pacing devices far (stage + 1) (net.stepEach segment).1 := by
  have hstep : ∀ net id, Quieting source pacing devices far stage net →
      Quieting source pacing devices far stage (net.step id).1 := fun _ id h => h.step id
  have hown : ∀ net id, Quieting source pacing devices far stage net → id ∈ devices →
      Heard (net.step id).1 id ∨ stage + 1 ≤ quietFor (net.step id).1 id := by
    intro net id h hid
    have hcounted := h.heard_step id id hid (h.heard id hid)
    rw [if_pos rfl] at hcounted
    exact hcounted
  have hkept : ∀ net id other, Quieting source pacing devices far stage net → other ≠ id →
      (other ∈ devices → Heard net other ∨ stage + 1 ≤ quietFor net other) →
        other ∈ devices → Heard (net.step id).1 other ∨
          stage + 1 ≤ quietFor (net.step id).1 other := by
    intro net id other h hne hcount hother
    have hcounted := h.heard_step id other hother (hcount hother)
    rw [if_neg hne] at hcounted
    exact hcounted
  have hafter := Network.stepEach_invariant hstep h segment
  refine ⟨hafter.sound, hafter.steady, ?_⟩
  intro id hid
  exact Network.stepEach_reaches (fun net id =>
    id ∈ devices → Heard net id ∨ stage + 1 ≤ quietFor net id) hstep hown hkept h (hall id hid) hid

theorem segments (h : Quieting source pacing devices far stage net)
    {segments : List (List DeviceId)} (hall : ∀ segment ∈ segments, ∀ id ∈ devices, id ∈ segment) :
    Quieting source pacing devices far (stage + segments.length)
      (net.stepEach segments.flatten).1 := by
  refine Network.stepEach_flatten ?_ h
  intro segment hsegment stage net h
  exact h.segment (hall segment hsegment)

/-- Nobody keeps quiet for a whole period, so that everyone has been heard after it. -/
theorem heard_all (h : Quieting source pacing devices far stage net)
    (hperiod : pacing.period ≤ stage)
    (id : DeviceId) : Heard net id := by
  intro neighbor hadj
  have hpresent := ((Network.adj_iff h.sound.built).mp hadj).1
  obtain ⟨node, hnode⟩ := Option.isSome_iff_exists.mp hpresent
  rcases h.heard id ((h.steady.present id).mp hpresent) with hheard | hquiet
  · exact hheard neighbor hadj
  · have hbelow := (h.sound.coherent id node hnode).quiet
    rw [quietFor, hnode, Option.map_some, Option.getD_some] at hquiet
    omega

end Quieting

/-! ## From stage to stage -/

/-- The network at a stage: everyone has been heard, and every device is as far as the stage
asks for. -/
structure Stage (source : String) (pacing : Pacing) (devices : List DeviceId)
    (far : DeviceId → ℕ∞) (trusted : Prop) (stage : ℕ) (net : Network) : Prop where
  sound : Sound source pacing net
  steady : Steady source devices far net
  heard : ∀ id, Heard net id
  reached : ∀ id ∈ devices, Reached trusted (far id) stage (latest net id)

namespace Stage

variable {trusted : Prop} {stage : ℕ}

theorem far_eq_zero_iff {isSource : Bool} (h : Stage source pacing devices far trusted stage net)
    (hreads : net.reads id source = some (.bool isSource)) : far id = 0 ↔ isSource = true := by
  rw [← h.steady.far id, Network.distance, hopsTo_eq_zero_iff]
  change net.reads id source = some (.bool true) ↔ _
  rw [hreads]
  simp

/-- What is heard rises with the values that neighbors had a stage ago: each of them is at most
one hop nearer. -/
theorem le_heard {k : ℕ} {heard : ℕ∞}
    (h : Stage source pacing devices far trusted stage net)
    (hk : trusted ∨ 2 * k ≤ stage + 1 + 1) (hfar : k ≤ far id)
    (habove : ∀ low, (∀ y hops, net.graph.Adj id y → Near trusted (far y) (stage - 1) hops →
      low ≤ hops + 1) → low ≤ heard) : k ≤ heard := by
  apply habove
  intro y hops hadj hnear
  cases k with
  | zero => exact bot_le
  | succ k =>
      have hhop : far id ≤ far y + 1 := by
        rw [← h.steady.far id, ← h.steady.far y]
        exact hopsTo_le_of_adj hadj
      have hneighbor : (k : ℕ∞) ≤ far y := by
        have hboth := hfar.trans hhop
        rw [Nat.cast_add, Nat.cast_one] at hboth
        exact (ENat.add_le_add_iff_right ENat.one_ne_top).mp hboth
      have htold : (k : ℕ∞) ≤ hops := by
        apply hnear.low k ?_ hneighbor
        rcases hk with htrusted | hk
        · exact Or.inl htrusted
        · right
          omega
      rw [Nat.cast_add, Nat.cast_one]
      exact add_le_add_left htold 1

/-- What is heard falls to the distance as soon as a neighbor one hop nearer has told its own. -/
theorem heard_le {d : ℕ} {heard : ℕ∞}
    (h : Stage source pacing devices far trusted stage net) (hd : far id = (d + 1 : ℕ))
    (hstage : 2 * (d + 1) + 1 ≤ stage + 1)
    (hbelow : ∀ y e v, net.graph.Adj id y → net.received id y = some e →
      e.get? toldPath = some v → ∃ hops, Near trusted (far y) (stage - 1) hops ∧ heard ≤ hops + 1) :
    heard ≤ (d + 1 : ℕ) := by
  obtain ⟨y, hadj, hy⟩ := exists_adj_of_hopsTo ((h.steady.far id).trans hd)
  have hfar : far y = d := (h.steady.far y).symm.trans hy
  have hpresent := ((Network.adj_iff h.sound.built).mp hadj).2.1
  have hreached := h.reached y ((h.steady.present y).mp hpresent)
  obtain ⟨e, he⟩ := Option.isSome_iff_exists.mp (hreached.started (by omega))
  obtain ⟨v, hv⟩ := Option.isSome_iff_exists.mp (hreached.telling e he (by omega))
  have hreceived := (h.heard y id hadj.symm).trans he
  obtain ⟨hops, hnear, hle⟩ := hbelow y e v hadj hreceived hv
  have htold : hops ≤ d := hnear.high d hfar (by omega)
  rw [Nat.cast_add, Nat.cast_one]
  exact hle.trans (add_le_add_left htold 1)

/-- What a device has to be at the next stage, from the neighbors it has heard at this one. -/
theorem near_of_heard {isSource : Bool} {heard : ℕ∞}
    (h : Stage source pacing devices far trusted stage net)
    (hreads : net.reads id source = some (.bool isSource))
    (habove : ∀ low, (∀ y hops, net.graph.Adj id y → Near trusted (far y) (stage - 1) hops →
      low ≤ hops + 1) → low ≤ heard)
    (hbelow : ∀ y e v, net.graph.Adj id y → net.received id y = some e →
      e.get? toldPath = some v → ∃ hops, Near trusted (far y) (stage - 1) hops ∧ heard ≤ hops + 1) :
    Near trusted (far id) (stage + 1) (if isSource then 0 else heard) := by
  have hzero := h.far_eq_zero_iff hreads
  cases isSource with
  | true =>
      rw [hzero.mpr rfl]
      exact .source _
  | false =>
      rw [if_neg Bool.false_ne_true]
      constructor
      · intro k hk hfar
        exact h.le_heard hk hfar habove
      · intro d hd hstage
        cases d with
        | zero =>
            have hsource := hzero.mp (by rw [hd, Nat.cast_zero])
            cases hsource
        | succ d => exact h.heard_le hd hstage hbelow

/-- A round takes a device to the next stage. -/
theorem reached_of_outcome {isSource : Bool} {value : ℕ∞} {e : Export}
    (h : Stage source pacing devices far trusted stage net)
    (hreached : Reached trusted (far id) stage (latest net id))
    (hreads : net.reads id source = some (.bool isSource))
    (houtcome : Outcome net id isSource (Near trusted (far id) stage)
      (fun y => Near trusted (far y) (stage - 1)) value e) :
    Reached trusted (far id) (stage + 1) (some e) := by
  cases houtcome with
  | first hfresh =>
      have hstage : stage = 0 := by
        by_contra hne
        have hstarted := hreached.started (by omega)
        rw [hfresh] at hstarted
        cases hstarted
      subst hstage
      have hnear : Near trusted (far id) 1 (if isSource then 0 else ⊤) := by
        have hzero := h.far_eq_zero_iff hreads
        cases isSource with
        | true =>
            rw [hzero.mpr rfl]
            exact .source _
        | false =>
            apply Near.unheard
            intro hfar
            cases hzero.mp hfar
      constructor
      case started => exact fun _ => rfl
      case value =>
        rintro _ ⟨⟩
        exact ⟨_, value_firstExport _, hnear⟩
      case told =>
        rintro _ v ⟨⟩ hv
        rw [told_firstExport] at hv
        cases hv
      case telling =>
        intro _ _ hstage
        omega
  | @later heard last _ hlast habove hbelow =>
      constructor
      case started => exact fun _ => rfl
      case value =>
        rintro _ ⟨⟩
        exact ⟨_, value_laterExport _ _ _, h.near_of_heard hreads habove hbelow⟩
      case told =>
        rintro _ v ⟨⟩ hv
        rw [told_laterExport, Option.some.injEq] at hv
        exact ⟨last, hv.symm, hlast⟩
      case telling =>
        rintro _ ⟨⟩ _
        rw [told_laterExport]
        rfl

/-- A step takes a device to the next stage and leaves the others where they are. -/
theorem reached_step (h : Stage source pacing devices far trusted stage net) (id : DeviceId) :
    Sound source pacing (net.step id).1 ∧ (∀ other, Heard (net.step id).1 other) ∧
      (id ∈ devices → Reached trusted (far id) (stage + 1) (latest (net.step id).1 id)) ∧
      ∀ other, other ≠ id → latest (net.step id).1 other = latest net other := by
  obtain ⟨hgraph, -, -⟩ := h.sound.wired.step_surroundings id
  cases hnode : net.nodes.find? id with
  | none =>
      rw [Network.step_unknown hnode]
      refine ⟨h.sound, h.heard, ?_, fun _ _ => rfl⟩
      intro hid
      have hpresent := (h.steady.present id).mpr hid
      rw [hnode] at hpresent
      cases hpresent
  | some node =>
      have hid : id ∈ devices := (h.steady.present id).mp (by rw [hnode]; rfl)
      have hreached := h.reached id hid
      obtain ⟨isSource, hreads⟩ := h.steady.reads id hid
      have hknown : ∀ y e v, net.graph.Adj id y → net.received id y = some e →
          e.get? toldPath = some v →
            ∃ hops, v = hopValue hops ∧ Near trusted (far y) (stage - 1) hops := by
        intro y e v hadj hreceived hv
        have hpresent := ((Network.adj_iff h.sound.built).mp hadj).2.1
        rw [h.heard y id hadj.symm] at hreceived
        exact (h.reached y ((h.steady.present y).mp hpresent)).told e v hreceived hv
      obtain ⟨value, e, hround, houtcome⟩ := h.sound.round hnode hreads _ _ hreached.value hknown
      obtain ⟨hsound, hcompleted⟩ := h.sound.completes hnode hround houtcome.sent houtcome.value_eq
      refine ⟨hsound, fun other => (h.heard other).completed hcompleted hgraph, ?_, ?_⟩
      · intro _
        rw [hcompleted.latest, if_pos rfl]
        exact h.reached_of_outcome hreached hreads houtcome
      · intro other hne
        rw [hcompleted.latest, if_neg hne]

theorem step (h : Stage source pacing devices far trusted stage net) (id : DeviceId) :
    Stage source pacing devices far trusted stage (net.step id).1 := by
  obtain ⟨hsound, hheard, hown, hothers⟩ := h.reached_step id
  refine ⟨hsound, h.steady.step h.sound id, hheard, ?_⟩
  intro other hother
  by_cases heq : other = id
  · subst heq
    exact (hown hother).mono (Nat.le_succ stage)
  · rw [hothers other heq]
    exact h.reached other hother

theorem run (h : Stage source pacing devices far trusted stage net) (schedule : List DeviceId) :
    Stage source pacing devices far trusted stage (net.stepEach schedule).1 := by
  refine Network.stepEach_invariant ?_ h schedule
  intro net id h
  exact h.step id

/-- A device that has stepped is at the next stage. -/
theorem reached_run (h : Stage source pacing devices far trusted stage net)
    {schedule : List DeviceId} (hid : id ∈ devices) (hschedule : id ∈ schedule) :
    Reached trusted (far id) (stage + 1) (latest (net.stepEach schedule).1 id) := by
  have hstep : ∀ net id, Stage source pacing devices far trusted stage net →
      Stage source pacing devices far trusted stage (net.step id).1 := fun _ id h => h.step id
  have hown : ∀ net id, Stage source pacing devices far trusted stage net → id ∈ devices →
      Reached trusted (far id) (stage + 1) (latest (net.step id).1 id) :=
    fun _ id h => (h.reached_step id).2.2.1
  have hkept : ∀ net id other, Stage source pacing devices far trusted stage net → other ≠ id →
      (other ∈ devices → Reached trusted (far other) (stage + 1) (latest net other)) →
        other ∈ devices →
          Reached trusted (far other) (stage + 1) (latest (net.step id).1 other) := by
    intro net id other h hne hreached hother
    rw [(h.reached_step id).2.2.2 other hne]
    exact hreached hother
  exact Network.stepEach_reaches (fun net id =>
    id ∈ devices → Reached trusted (far id) (stage + 1) (latest net id)) hstep hown hkept h
    hschedule hid

theorem segment (h : Stage source pacing devices far trusted stage net)
    {segment : List DeviceId} (hall : ∀ id ∈ devices, id ∈ segment) :
    Stage source pacing devices far trusted (stage + 1) (net.stepEach segment).1 := by
  have hafter := h.run segment
  refine ⟨hafter.sound, hafter.steady, hafter.heard, ?_⟩
  intro id hid
  exact h.reached_run hid (hall id hid)

theorem segments (h : Stage source pacing devices far trusted stage net)
    {segments : List (List DeviceId)} (hall : ∀ segment ∈ segments, ∀ id ∈ devices, id ∈ segment) :
    Stage source pacing devices far trusted (stage + segments.length)
      (net.stepEach segments.flatten).1 := by
  refine Network.stepEach_flatten ?_ h
  intro segment hsegment stage net h
  exact h.segment (hall segment hsegment)

/-- What a device is seen to have at a stage. -/
theorem value (h : Stage source pacing devices far trusted stage net) (hid : id ∈ devices)
    {v : Value} (hv : net.recorder.value? id = some v) :
    ∃ hops, v = hopValue hops ∧ Near trusted (far id) stage hops := by
  rw [h.sound.value, Option.bind_eq_some_iff] at hv
  obtain ⟨e, he, hvalue⟩ := hv
  obtain ⟨hops, hhops, hnear⟩ := (h.reached id hid).value e he
  rw [hhops, Option.some.injEq] at hvalue
  exact ⟨hops, hvalue.symm, hnear⟩

/-- A device that has stepped has a value, and one that the next stage allows. -/
theorem value_of_stepped (h : Stage source pacing devices far trusted stage net)
    {schedule : List DeviceId} (hid : id ∈ devices) (hschedule : id ∈ schedule) :
    ∃ hops, (net.stepEach schedule).1.recorder.value? id = some (hopValue hops) ∧
      Near trusted (far id) (stage + 1) hops := by
  have hreached := h.reached_run hid hschedule
  obtain ⟨e, he⟩ := Option.isSome_iff_exists.mp (hreached.started (by omega))
  obtain ⟨hops, hvalue, hnear⟩ := hreached.value e he
  refine ⟨hops, ?_, hnear⟩
  rw [(h.run schedule).sound.value, he, Option.bind_some, hvalue]

/-- Once a stage has settled the value of a device, it is the distance. -/
theorem value_eq (h : Stage source pacing devices far trusted stage net) (hid : id ∈ devices)
    {d : ℕ} (hfar : far id = d) (hlow : trusted ∨ 2 * d ≤ stage + 1) (hhigh : 2 * d + 1 ≤ stage)
    (hexact : d ≤ 2 ^ 53) : net.recorder.value? id = some (.number (.ofNat d)) := by
  have hreached := h.reached id hid
  obtain ⟨e, he⟩ := Option.isSome_iff_exists.mp (hreached.started (by omega))
  obtain ⟨hops, hvalue, hnear⟩ := hreached.value e he
  rw [hfar] at hnear
  rw [h.sound.value, he, Option.bind_some, hvalue, hnear.eq hlow hhigh, hopValue,
    Number.ofHops_coe, min_eq_left hexact]

end Stage

end FieldCalculus.HopGradient
