import FieldCalculus.Proofs.Endpoints
import Mathlib.Data.List.Induction

/-!
What a table answers after any arrivals and evictions, whatever times they carry. The message
that was stored last from a sender is the one that counts, and it is given out as long as its
arrival is within the staleness window. An eviction takes only what no later question would be
answered with, so that it makes no difference whether and when there is one.
-/

namespace FieldCalculus.NeighborTable

/-! ## Acts on a table -/

/-- What is done to a table, each at a time of its own. -/
inductive Act where
  | store (message : Message) (time : Nat)
  | evict (time : Nat)

/-- The table after an act. -/
def perform (t : NeighborTable) : Act → NeighborTable
  | .store message time => t.store message time
  | .evict time => t.evictStale time

def run (t : NeighborTable) (acts : List Act) : NeighborTable := acts.foldl perform t

variable {t : NeighborTable} {acts : List Act} {now time : Nat}

theorem run_concat (t : NeighborTable) (acts : List Act) (act : Act) :
    t.run (acts ++ [act]) = (t.run acts).perform act :=
  List.foldl_append

theorem staleness_run (t : NeighborTable) (acts : List Act) :
    (t.run acts).staleness = t.staleness := by
  induction acts using List.reverseRecOn with
  | nil => rfl
  | append_singleton acts act ih =>
      rw [run_concat]
      cases act <;> exact ih

/-- What an act brings into the table. -/
def Act.arrival? : Act → Option Arrival
  | .store message time => some ⟨message, time⟩
  | .evict _ => none

/-- All arrivals, in the order of the calls. -/
def arrivals (acts : List Act) : List Arrival := acts.filterMap Act.arrival?

/-- The arrival from a sender that was stored last, whatever time it carries. -/
def lastStored? (acts : List Act) (sender : DeviceId) : Option Arrival :=
  ((arrivals acts).filter (·.message.sender = sender)).getLast?

theorem lastStored?_store (acts : List Act) (message : Message) (time : Nat) (sender : DeviceId) :
    lastStored? (acts ++ [.store message time]) sender =
      if sender = message.sender then some ⟨message, time⟩ else lastStored? acts sender := by
  have harrivals : arrivals (acts ++ [.store message time]) = arrivals acts ++ [⟨message, time⟩] :=
    List.filterMap_append
  rw [lastStored?, harrivals, List.filter_append]
  split
  · rename_i heq
    rw [List.filter_cons_of_pos (by simpa using heq.symm), List.filter_nil, List.getLast?_concat]
  · rename_i hne
    rw [List.filter_cons_of_neg (by simpa using Ne.symm hne), List.filter_nil, List.append_nil]
    rfl

theorem lastStored?_evict (acts : List Act) (time : Nat) (sender : DeviceId) :
    lastStored? (acts ++ [.evict time]) sender = lastStored? acts sender := by
  have harrivals : arrivals (acts ++ [.evict time]) = arrivals acts :=
    List.filterMap_append.trans (List.append_nil _)
  rw [lastStored?, harrivals, lastStored?]

/-! ## What an act leaves to be asked for -/

/-- What is stale at some time is stale at all later times, so an eviction takes nothing that a
later question would find. -/
theorem fresh?_evictStale (h : time ≤ now) (sender : DeviceId) :
    (t.evictStale time).fresh? sender now = t.fresh? sender now := by
  have hstays : ∀ arrival, t.isFresh arrival now → t.isFresh arrival time := by
    intro arrival hfresh
    rw [isFresh, decide_eq_true_eq] at hfresh ⊢
    omega
  change ((t.evictStale time).entries.find? sender).filter (t.isFresh · now) = _
  rw [find?_evictStale, fresh?, Option.filter_filter, fresh?]
  congr 1
  funext arrival
  cases hfresh : t.isFresh arrival now with
  | false => rw [Bool.and_false]
  | true => rw [hstays arrival hfresh, Bool.and_true]

theorem fresh?_store (t : NeighborTable) (message : Message) (time now : Nat) (sender : DeviceId) :
    (t.store message time).fresh? sender now =
      if sender = message.sender then (some ⟨message, time⟩ : Option Arrival).filter (t.isFresh · now)
      else t.fresh? sender now := by
  change ((t.store message time).entries.find? sender).filter (t.isFresh · now) = _
  rw [find?_store]
  split
  · rfl
  · rfl

/-- After any acts that evict at no time later than asked, a lookup finds what was stored last,
if it is fresh. -/
theorem fresh?_run (staleness : Nat) (hacts : ∀ time, .evict time ∈ acts → time ≤ now)
    (sender : DeviceId) : ((empty staleness).run acts).fresh? sender now =
      (lastStored? acts sender).filter fun arrival => now - arrival.receivedAt ≤ staleness := by
  induction acts using List.reverseRecOn with
  | nil => rfl
  | append_singleton acts act ih =>
      have hbefore := ih fun time hmem => hacts time (List.mem_append_left _ hmem)
      rw [run_concat]
      cases act with
      | store message time =>
          have hfresh : ((empty staleness).run acts).isFresh ⟨message, time⟩ now =
              decide (now - time ≤ staleness) := by
            rw [isFresh, staleness_run]
            rfl
          refine (fresh?_store _ message time now sender).trans ?_
          rw [lastStored?_store, hbefore]
          split
          · rw [Option.filter_some, Option.filter_some, hfresh]
          · rfl
      | evict time =>
          have hby := hacts time (List.mem_append_right _ List.mem_cons_self)
          refine (fresh?_evictStale hby sender).trans ?_
          rw [lastStored?_evict, hbefore]

/-! ## The answers of a table -/

/-- A table answers with the message that was stored last, in the order of the calls, as long as
the question comes within the staleness window after its arrival, and a snapshot holds these
answers' exports. Evictions make no difference: what is asked for, at no time before any of them,
depends on the arrivals only. -/
theorem answers_last_stored (staleness now : Nat) (acts : List Act)
    (hacts : ∀ time, .evict time ∈ acts → time ≤ now) :
    let answer (sender : DeviceId) : Option Message := ((lastStored? acts sender).filter
      fun arrival => now - arrival.receivedAt ≤ staleness).map Arrival.message
    (∀ sender, ((empty staleness).run acts).latest? sender now = answer sender) ∧
    (∀ ids sender, (((empty staleness).run acts).snapshot ids now).find? sender =
      if sender ∈ ids then (answer sender).map Message.exported else none) ∧
    ∀ others, arrivals others = arrivals acts → (∀ time, .evict time ∈ others → time ≤ now) →
      (∀ sender, ((empty staleness).run others).latest? sender now =
        ((empty staleness).run acts).latest? sender now) ∧
      ∀ ids, ((empty staleness).run others).snapshot ids now =
        ((empty staleness).run acts).snapshot ids now := by
  intro answer
  have hlatest : ∀ sender, ((empty staleness).run acts).latest? sender now = answer sender := by
    intro sender
    rw [latest?, fresh?_run staleness hacts]
  refine ⟨hlatest, ?_, ?_⟩
  · intro ids sender
    rw [find?_snapshot, hlatest]
  · intro others harrivals hothers
    have hsame : ∀ sender, ((empty staleness).run others).latest? sender now =
        ((empty staleness).run acts).latest? sender now := by
      intro sender
      rw [hlatest, latest?, fresh?_run staleness hothers, lastStored?, harrivals]
      rfl
    refine ⟨hsame, fun ids => Dict.ext_find? fun sender => ?_⟩
    rw [find?_snapshot, find?_snapshot, hsame]

/-- The message of a round of a device. -/
def note (round : UInt64) : Message := ⟨⟨"a"⟩, round, .ofMillis 0, .ofPuts [] .unit⟩

/-- A message arrives, and then an earlier one that is said to have arrived long before. -/
def backwards : List Act := [.store (note 1) 900, .store (note 0) 100, .evict 300]

/-- The one that was stored last is the one that is given out, to the end of its window. -/
theorem backwards_answers :
    (∀ time, .evict time ∈ backwards → time ≤ 600) ∧
      ((empty 500).run backwards).latest? ⟨"a"⟩ 600 = some (note 0) ∧
      ((empty 500).run backwards).latest? ⟨"a"⟩ 601 = none := by
  have hby : ∀ time, .evict time ∈ backwards → time ≤ 300 := by simp [backwards]
  have hsoon : ∀ time, .evict time ∈ backwards → time ≤ 600 :=
    fun time hmem => Nat.le_trans (hby time hmem) (by decide)
  have hlate : ∀ time, .evict time ∈ backwards → time ≤ 601 :=
    fun time hmem => Nat.le_trans (hby time hmem) (by decide)
  exact ⟨hsoon, (answers_last_stored 500 600 backwards hsoon).1 ⟨"a"⟩,
    (answers_last_stored 500 601 backwards hlate).1 ⟨"a"⟩⟩

end FieldCalculus.NeighborTable
