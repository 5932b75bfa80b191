import FieldCalculus.Proofs.Export
import FieldCalculus.Proofs.Lifetime

/-!
When a device hands its export to the exchange. A device whose exports stay the same is heard in
every so many rounds, as long as they equal themselves: one that holds a NaN is never found to be
unchanged. An offer that the exchange refuses leaves the device as if nothing had been offered, so
that it is made again, unless by then the export is back to the one that was taken last.
-/

namespace FieldCalculus

/-! ## Equality with oneself -/

namespace Value

mutual

/-- Some number that equality looks at is a NaN. It looks into tuples and at what closures have
captured, but not into their bodies. -/
def holdsNaN : Value → Bool
  | .number n => n.isNaN
  | .tuple items => itemsHoldNaN items
  | .closure _ _ _ env => envHoldsNaN env
  | .unit | .bool _ | .text _ | .builtin _ => false

def itemsHoldNaN : List Value → Bool
  | [] => false
  | v :: rest => holdsNaN v || itemsHoldNaN rest

def envHoldsNaN : List (String × Value) → Bool
  | [] => false
  | (_, v) :: rest => holdsNaN v || envHoldsNaN rest

end

mutual

/-- A value is equal to itself unless it holds a NaN. -/
theorem equals_self : ∀ v : Value, v.equals v = !v.holdsNaN
  | .number n => by
      rw [equals, holdsNaN, Number.equals]
      cases n.isNaN <;> simp
  | .tuple items => by rw [equals, holdsNaN, equalsAll_self items]
  | .closure code params body env => by
      rw [equals, holdsNaN, equalsEnv_self env, beq_self_eq_true, Bool.true_and]
  | .unit => rfl
  | .bool b | .text s | .builtin b => by
      rw [equals, holdsNaN, beq_self_eq_true]
      rfl

theorem equalsAll_self : ∀ items : List Value, equalsAll items items = !itemsHoldNaN items
  | [] => rfl
  | v :: rest => by
      rw [equalsAll, itemsHoldNaN, equals_self v, equalsAll_self rest, Bool.not_or]

theorem equalsEnv_self : ∀ env : Env, equalsEnv env env = !envHoldsNaN env
  | [] => rfl
  | (x, v) :: rest => by
      rw [equalsEnv, envHoldsNaN, equals_self v, equalsEnv_self rest, beq_self_eq_true,
        Bool.true_and, Bool.not_or]

end

end Value

namespace Export

/-- Some value of the export holds a NaN. -/
def holdsNaN (e : Export) : Bool := e.toList.any fun entry => entry.2.holdsNaN

/-- An export is equal to itself unless it holds a NaN. -/
theorem equals_self (e : Export) : e.equals e = !e.holdsNaN := by
  rw [Bool.eq_iff_iff, equals, equalEntries_iff, List.forall₂_same, Bool.not_eq_true', holdsNaN,
    List.any_eq_false]
  constructor
  · intro h entry hmem
    have hequal := (h entry hmem).2
    rw [Value.equals_self, Bool.not_eq_true'] at hequal
    rw [hequal]
    exact Bool.false_ne_true
  · intro h entry hmem
    refine ⟨rfl, ?_⟩
    rw [Value.equals_self, Bool.not_eq_true', ← Bool.not_eq_true]
    exact h entry hmem

end Export

/-- The next count is a multiple of the period when the remainder of this one fills it up. -/
theorem Pacing.period_dvd_succ (p : Pacing) (count : Nat) :
    p.period ∣ count + 1 ↔ p.period ≤ count % p.period + 1 := by
  have hpos : p.period ≠ 0 := Nat.ne_of_gt (Nat.le_max_right _ 1)
  obtain ⟨k, hk⟩ := Nat.exists_eq_add_one_of_ne_zero hpos
  have hbelow : count % (k + 1) < k + 1 := Nat.mod_lt count (Nat.succ_pos k)
  rw [hk, Nat.dvd_iff_mod_eq_zero, Nat.succ_mod_succ_eq_zero_iff]
  omega

namespace Device

variable {d : Device} {s : Setting} {report : RoundReport} {exported : Export}

/-! ## Exports that stay the same -/

/-- Where a device stands after a number of rounds that all came to the same export and were taken
whenever they were offered. -/
inductive Repeats (d : Device) (exported : Export) : Nat → Prop where
  | fresh (lastExport : d.lastExport = none) (quietRounds : d.quietRounds = 0) :
    Repeats d exported 0
  | settled {count : Nat} (lastExport : d.lastExport = some exported)
    (quietRounds : d.quietRounds = if exported.holdsNaN then 0 else count % d.pacing.period) :
    Repeats d exported (count + 1)

namespace Repeats

variable {count : Nat}

/-- The export is offered in the first round and when the heartbeat is due again. -/
theorem sends_iff (h : d.Repeats exported count) :
    d.sends exported ↔ d.pacing.period ∣ count ∨ exported.holdsNaN := by
  cases h with
  | fresh hlast hquiet => simp [sends, isChanged, hlast]
  | @settled count hlast hquiet =>
      have hchanged : d.isChanged exported = exported.holdsNaN := by
        rw [isChanged, hlast]
        dsimp only
        rw [Export.equals_self, Bool.not_not]
      rw [sends, Bool.or_eq_true, hchanged, isDue, decide_eq_true_eq, hquiet,
        Pacing.period_dvd_succ]
      cases exported.holdsNaN <;> simp

theorem stop (h : d.Repeats exported count) : (d.take .stop).Repeats exported count := by
  cases h with
  | fresh hlast hquiet => exact .fresh hlast hquiet
  | settled hlast hquiet => exact .settled hlast hquiet

/-- One more round with the same export keeps the count. -/
theorem round (h : d.Repeats exported count) (haccepts : s.accepts)
    (hreport : (d.round s).2 = .ok report) (hsame : report.exported = exported) :
    (d.round s).1.Repeats exported (count + 1) ∧
      (report.published ↔ d.pacing.period ∣ count ∨ exported.holdsNaN) := by
  obtain ⟨result, houtcome, hexported, -, hpublished⟩ := evaluated_of_report hreport
  rw [hsame] at hexported hpublished
  have hsends := h.sends_iff
  rw [haccepts, Bool.and_true] at hpublished
  have hexact : report.published ↔ d.pacing.period ∣ count ∨ exported.holdsNaN := by
    rw [hpublished, hsends]
  refine ⟨?_, hexact⟩
  rw [round_of_ok houtcome, hexported, haccepts, Bool.and_true]
  cases hoffered : d.sends exported with
  | true =>
      refine .settled rfl ?_
      have hwhy := hsends.mp hoffered
      change 0 = if exported.holdsNaN then 0 else count % d.pacing.period
      split
      · rfl
      · rename_i hfree
        exact (Nat.mod_eq_zero_of_dvd (hwhy.resolve_right hfree)).symm
  | false =>
      have hnot : ¬d.sends exported := by simp [hoffered]
      rw [hsends, not_or] at hnot
      obtain ⟨hnotdue, hfree⟩ := hnot
      cases h with
      -- the first round is always offered
      | fresh _ _ => exact absurd (Nat.dvd_zero _) hnotdue
      | @settled count hlast hquiet =>
          refine .settled hlast ?_
          change d.quietRounds + 1 = if exported.holdsNaN then 0 else (count + 1) % d.pacing.period
          rw [if_neg hfree] at hquiet ⊢
          rw [Pacing.period_dvd_succ, Nat.not_le] at hnotdue
          rw [hquiet, ← Nat.mod_eq_of_lt hnotdue, Nat.mod_add_mod]

end Repeats

/-- Each outcome is that of a round with the outcomes before it behind it. -/
theorem exists_of_outcome {turns : List Turn} {k : Nat} {outcome : RoundOutcome}
    (h : (d.outcomes turns)[k]? = some outcome) :
    ∃ before s after, turns = before ++ .round s :: after ∧ (d.outcomes before).length = k ∧
      ((d.run before).round s).2 = outcome := by
  induction turns generalizing d k with
  | nil => cases h
  | cons turn rest ih =>
      cases turn with
      | stop =>
          obtain ⟨before, s, after, rfl, hlength, houtcome⟩ := ih (d := d.take .stop) h
          exact ⟨.stop :: before, s, after, rfl, hlength, houtcome⟩
      | round s =>
          cases k with
          | zero => exact ⟨[], s, rest, rfl, rfl, Option.some.inj h⟩
          | succ k =>
              obtain ⟨before, later, after, rfl, hlength, houtcome⟩ := ih (d := (d.round s).1) h
              exact ⟨.round s :: before, later, after, rfl, congrArg Nat.succ hlength, houtcome⟩

/-- All rounds come to the same export, and the exchange takes what it is offered. -/
structure Unchanging (d : Device) (turns : List Turn) (exported : Export) : Prop where
  accepts : ∀ s, .round s ∈ turns → s.accepts
  same : ∀ outcome ∈ d.outcomes turns, ∃ report, outcome = .ok report ∧ report.exported = exported

theorem Unchanging.left {first second : List Turn}
    (h : d.Unchanging (first ++ second) exported) : d.Unchanging first exported := by
  constructor
  · exact fun s hmem => h.accepts s (List.mem_append_left _ hmem)
  · intro outcome hmem
    refine h.same outcome ?_
    rw [outcomes_append]
    exact List.mem_append_left _ hmem

/-- A device that began afresh counts the rounds that came to the same export. -/
theorem Unchanging.repeats {id : DeviceId} {program : Expr} {pacing : Pacing} {turns : List Turn}
    (h : (start id program pacing).Unchanging turns exported) :
    ((start id program pacing).run turns).Repeats exported
      ((start id program pacing).outcomes turns).length := by
  induction turns using List.reverseRecOn with
  | nil => exact .fresh rfl rfl
  | append_singleton turns turn ih =>
      have hbefore := ih h.left
      have hsame := h.same
      rw [outcomes_concat] at hsame
      rw [run_concat, outcomes_concat]
      cases turn with
      | stop =>
          rw [outcomeOf?, Option.toList_none, List.append_nil]
          exact hbefore.stop
      | round s =>
          obtain ⟨report, houtcome, hexported⟩ :=
            hsame _ (List.mem_append_right _ List.mem_cons_self)
          have haccepts := h.accepts s (List.mem_append_right _ List.mem_cons_self)
          rw [List.length_append]
          exact (hbefore.round haccepts houtcome hexported).1

/-- As long as its export stays the same and the exchange takes what it is offered, a device
publishes in the rounds whose number is a multiple of the heartbeat, and in no others, unless the
export holds a NaN: such an export is published in every round. -/
theorem unchanging_published_iff {id : DeviceId} {program : Expr} {pacing : Pacing}
    {turns : List Turn} (h : (start id program pacing).Unchanging turns exported) {k : Nat}
    (hreport : ((start id program pacing).outcomes turns)[k]? = some (.ok report)) :
    report.published ↔ max pacing.republishEvery.toNat 1 ∣ k ∨ exported.holdsNaN := by
  obtain ⟨before, s, after, rfl, rfl, houtcome⟩ := exists_of_outcome hreport
  have hmem : .ok report ∈ (start id program pacing).outcomes (before ++ .round s :: after) :=
    List.mem_of_getElem? hreport
  obtain ⟨_, hsame, hexported⟩ := h.same _ hmem
  cases hsame
  have haccepts := h.accepts s (List.mem_append_right _ List.mem_cons_self)
  have hpublished := (h.left.repeats.round haccepts houtcome hexported).2
  rwa [pacing_run] at hpublished

/-- A round with a reading, and an exchange that takes what it is offered or does not. -/
def reading (v : Value) (accepts : Bool) : Setting :=
  ⟨(SensorTable.empty.set "v" v).sensors, .empty, 0, accepts⟩

/-- A device that comes to its reading, with a heartbeat in every third round. -/
def gauge : Device := start ⟨"a"⟩ (.sense "v") ⟨200, 2000, 3⟩

/-- What a round of it comes to. -/
def gauged (round : Nat) (v : Value) (published : Bool) : RoundReport :=
  ⟨⟨"a"⟩, round, v, .ofPuts [] v, 0, published⟩

/-- Four rounds with one reading, and a stop in between. -/
def steady (v : Value) : List Turn :=
  [.round (reading v true), .round (reading v true), .stop, .round (reading v true),
    .round (reading v true)]

theorem unchanging_steady {v : Value} {first second third fourth : Bool}
    (h : gauge.outcomes (steady v) = [.ok (gauged 0 v first), .ok (gauged 1 v second),
      .ok (gauged 2 v third), .ok (gauged 3 v fourth)]) :
    gauge.Unchanging (steady v) (.ofPuts [] v) := by
  constructor
  · simp [steady, reading]
  · rw [h]
    simp [gauged]

/-- A reading that stays the same is published in every third round. -/
theorem steady_published : gauge.Unchanging (steady (.bool true)) (.ofPuts [] (.bool true)) ∧
    (gauge.outcomes (steady (.bool true))).length = 4 ∧
    ∀ k report, (gauge.outcomes (steady (.bool true)))[k]? = some (.ok report) →
      (report.published ↔ 3 ∣ k) := by
  have houtcomes : gauge.outcomes (steady (.bool true)) =
      [.ok (gauged 0 (.bool true) true), .ok (gauged 1 (.bool true) false),
        .ok (gauged 2 (.bool true) false), .ok (gauged 3 (.bool true) true)] := rfl
  have hsame := unchanging_steady houtcomes
  have hfree : (Export.ofPuts [] (.bool true)).holdsNaN = false := rfl
  refine ⟨hsame, by rw [houtcomes]; rfl, fun k report hreport => ?_⟩
  have hpublished := unchanging_published_iff hsame hreport
  rwa [hfree, or_iff_left Bool.false_ne_true] at hpublished

/-- A NaN that is read in each round is published in each round. -/
theorem nan_published : gauge.Unchanging (steady (.number .nan)) (.ofPuts [] (.number .nan)) ∧
    (gauge.outcomes (steady (.number .nan)))[1]? = some (.ok (gauged 1 (.number .nan) true)) ∧
    ¬max gauge.pacing.republishEvery.toNat 1 ∣ 1 := by
  have houtcomes : gauge.outcomes (steady (.number .nan)) =
      [.ok (gauged 0 (.number .nan) true), .ok (gauged 1 (.number .nan) true),
        .ok (gauged 2 (.number .nan) true), .ok (gauged 3 (.number .nan) true)] := rfl
  exact ⟨unchanging_steady houtcomes, by rw [houtcomes]; rfl, by decide⟩

/-! ## Offers that were refused -/

/-- The device stands to the exchange as before: the same export was taken last, and the next
heartbeat is as far away. -/
structure SameStanding (d next : Device) : Prop where
  id : next.id = d.id
  pacing : next.pacing = d.pacing
  lastExport : next.lastExport = d.lastExport
  quietRounds : next.quietRounds = d.quietRounds

namespace SameStanding

variable {next later : Device}

theorem trans (h : d.SameStanding next) (hlater : next.SameStanding later) :
    d.SameStanding later where
  id := hlater.id.trans h.id
  pacing := hlater.pacing.trans h.pacing
  lastExport := hlater.lastExport.trans h.lastExport
  quietRounds := hlater.quietRounds.trans h.quietRounds

theorem sends (h : d.SameStanding next) (exported : Export) :
    next.sends exported = d.sends exported := by
  rw [Device.sends, Device.sends, isChanged, isChanged, isDue, isDue, h.lastExport, h.quietRounds,
    h.pacing]

theorem of_failed {failure : RoundFailure} (h : (d.round s).2 = .error failure) :
    d.SameStanding (d.round s).1 := by
  rw [round_of_error (evaluate_of_failed h)]
  exact ⟨rfl, rfl, rfl, rfl⟩

theorem of_refused {message : Message} (hoffer : d.offer s = some message)
    (hrefused : s.accepts = false) :
    d.SameStanding (d.round s).1 ∧ d.sends message.exported := by
  cases houtcome : evaluate d.program (d.inputs s) with
  | error error =>
      rw [offer_of_error houtcome] at hoffer
      cases hoffer
  | ok result =>
      rw [offer_of_ok houtcome] at hoffer
      split at hoffer
      · rename_i hsends
        cases hoffer
        rw [round_of_ok houtcome, hrefused, hsends]
        exact ⟨⟨rfl, rfl, rfl, rfl⟩, rfl⟩
      · cases hoffer

/-- Rounds that fail and stops leave everything to the exchange as it was. -/
theorem run {turns : List Turn}
    (h : ∀ outcome ∈ d.outcomes turns, ∃ failure, outcome = .error failure) :
    d.SameStanding (d.run turns) := by
  induction turns generalizing d with
  | nil => exact ⟨rfl, rfl, rfl, rfl⟩
  | cons turn rest ih =>
      have hrest := ih (d := d.take turn) fun outcome hmem =>
        h outcome (List.mem_append_right _ hmem)
      cases turn with
      | stop => exact ⟨hrest.id, hrest.pacing, hrest.lastExport, hrest.quietRounds⟩
      | round s =>
          obtain ⟨failure, hfailed⟩ := h (d.round s).2 List.mem_cons_self
          exact (of_failed hfailed).trans hrest

end SameStanding

theorem sends_eq_false_iff : d.sends exported = false ↔
    ∃ last, d.lastExport = some last ∧ last.equals exported ∧
      d.quietRounds + 1 < d.pacing.period := by
  rw [sends, Bool.or_eq_false_iff, isDue, decide_eq_false_iff_not, Nat.not_le, isChanged]
  cases d.lastExport <;> simp

/-- When the exchange has refused an offer, the next round that succeeds hands its export to the
exchange, whatever it is and whatever has failed in between, with one exception: it is equal to the
export that was taken before the refusal, and the heartbeat is not due. -/
theorem refused_offered_again {later : Setting} {message : Message} {between : List Turn}
    (hoffer : d.offer s = some message) (hrefused : s.accepts = false)
    (hfailed : ∀ outcome ∈ (d.round s).1.outcomes between, ∃ failure, outcome = .error failure)
    (hreport : (((d.round s).1.run between).round later).2 = .ok report) :
    let next := (d.round s).1.run between
    (next.offer later = none ↔ ∃ last, d.lastExport = some last ∧ last.equals report.exported ∧
        d.quietRounds + 1 < d.pacing.period) ∧
      (∀ again, next.offer later = some again → again =
        ⟨d.id, UInt64.ofNat report.round, .ofMillis later.now, report.exported⟩) ∧
      (report.exported = message.exported → (next.offer later).isSome) := by
  intro next
  obtain ⟨hleft, hsends⟩ := SameStanding.of_refused hoffer hrefused
  have hstanding : d.SameStanding next := hleft.trans (.run hfailed)
  obtain ⟨result, houtcome, hexported, hround, -⟩ := evaluated_of_report hreport
  have hnext : next.offer later = if d.sends report.exported then
      some ⟨d.id, UInt64.ofNat report.round, .ofMillis later.now, report.exported⟩ else none := by
    rw [offer_of_ok houtcome, hstanding.sends, hstanding.id, hexported, hround]
  rw [hnext]
  refine ⟨?_, ?_, ?_⟩
  · rw [← sends_eq_false_iff]
    cases d.sends report.exported <;> simp
  · intro again hagain
    split at hagain
    · exact (Option.some.inj hagain).symm
    · cases hagain
  · intro hsame
    rw [hsame, if_pos hsends]
    rfl

/-- A round in which nothing can be read. -/
def blind : Setting := ⟨SensorTable.empty.sensors, .empty, 0, true⟩

/-- The device when its first reading has been taken. -/
def gaugeTold : Device := gauge.run [.round (reading (.bool true) true)]

/-- A reading that the exchange refuses is offered again after a failed round. -/
theorem refused_reading_offered_again :
    let next := (gaugeTold.round (reading (.bool false) false)).1.run [.round blind, .stop]
    (gaugeTold.offer (reading (.bool false) false)).map Message.exported =
        some (.ofPuts [] (.bool false)) ∧
      (next.round (reading (.bool false) true)).2 = .ok (gauged 3 (.bool false) true) ∧
      (next.offer (reading (.bool false) true)).isSome := by
  intro next
  have hfailed : ∀ outcome ∈
      (gaugeTold.round (reading (.bool false) false)).1.outcomes [.round blind, .stop],
      ∃ failure, outcome = .error failure := by
    intro outcome hmem
    obtain rfl := List.mem_singleton.mp hmem
    exact ⟨_, rfl⟩
  exact ⟨rfl, rfl, (refused_offered_again (s := reading (.bool false) false) rfl rfl hfailed
    rfl).2.2 rfl⟩

/-- A reading that is back to what was taken before the refusal is not offered. -/
theorem reverted_reading_withheld :
    let next := (gaugeTold.round (reading (.bool false) false)).1
    (gaugeTold.offer (reading (.bool false) false)).isSome ∧
      (reading (.bool false) false).accepts = false ∧
      (next.round (reading (.bool true) true)).2 = .ok (gauged 2 (.bool true) false) ∧
      next.offer (reading (.bool true) true) = none :=
  ⟨rfl, rfl, rfl, rfl⟩

end Device

end FieldCalculus
