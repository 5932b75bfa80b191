import FieldCalculus.Network.Peers
import FieldCalculus.Proofs.Dict
import Mathlib.Data.List.Induction

/-!
Who counts as present. A directory keeps one time for each peer, and a hello takes the place of all
that came before it from the same peer. While the clock does not go back nothing is lost by this: a
peer is listed exactly when some hello of it is recent enough, whatever was heard from the others
and whether it is asked for a time before or after.
-/

namespace FieldCalculus.PeerDirectory

/-- Who was heard from, and when. -/
structure Hello where
  peer : DeviceId
  time : Nat

/-- The directory of a device after hellos, in the order in which they came. -/
def heard (me : DeviceId) (ttl : Nat) (hellos : List Hello) : PeerDirectory :=
  hellos.foldl (fun d hello => d.observe hello.peer hello.time) (empty me ttl)

/-- The times of a peer's hellos, in the order in which they came. -/
def times (hellos : List Hello) (peer : DeviceId) : List Nat :=
  (hellos.filter (·.peer = peer)).map Hello.time

/-- The clock does not go back. -/
def InOrder (hellos : List Hello) : Prop := hellos.Pairwise fun a b => a.time ≤ b.time

variable {me id peer : DeviceId} {ttl now time : Nat} {hellos : List Hello} {d : PeerDirectory}

theorem heard_concat (me : DeviceId) (ttl : Nat) (hellos : List Hello) (hello : Hello) :
    heard me ttl (hellos ++ [hello]) = (heard me ttl hellos).observe hello.peer hello.time := by
  simp [heard]

theorem me_observe : (d.observe peer time).me = d.me := by
  unfold observe
  split <;> rfl

theorem ttl_observe : (d.observe peer time).ttl = d.ttl := by
  unfold observe
  split <;> rfl

/-- A hello is kept in place of what was kept of its peer, and the device's own is not kept. -/
theorem find?_observe : (d.observe peer time).seen.find? id =
    if id = peer ∧ id ≠ d.me then some time else d.seen.find? id := by
  unfold observe
  by_cases hown : peer = d.me
  · subst hown
    simp
  · simp only [if_neg hown, Dict.find?_insert]
    by_cases hid : id = peer
    · simp [hid, hown]
    · simp [hid]

theorem me_heard (hellos : List Hello) : (heard me ttl hellos).me = me := by
  induction hellos using List.reverseRecOn with
  | nil => rfl
  | append_singleton hellos hello ih => rw [heard_concat, me_observe, ih]

theorem ttl_heard (hellos : List Hello) : (heard me ttl hellos).ttl = ttl := by
  induction hellos using List.reverseRecOn with
  | nil => rfl
  | append_singleton hellos hello ih => rw [heard_concat, ttl_observe, ih]

/-- Of each peer the last hello is kept, whatever time it carries. -/
theorem find?_heard (hellos : List Hello) (id : DeviceId) :
    (heard me ttl hellos).seen.find? id =
      if id = me then none else (times hellos id).getLast? := by
  induction hellos using List.reverseRecOn with
  | nil => simp [heard, times, empty, Dict.find?_empty]
  | append_singleton hellos hello ih =>
      rw [heard_concat, find?_observe, me_heard, ih]
      by_cases hown : id = me
      · simp [hown]
      · by_cases hpeer : hello.peer = id
        · simp [times, hown, hpeer]
        · simp [times, hown, hpeer, Ne.symm hpeer]

/-- Where no time is less than one before it, the last one is the most recent. -/
theorem exists_recent_iff {times : List Nat} (hordered : times.Pairwise (· ≤ ·)) :
    (∃ time ∈ times, now - time ≤ ttl) ↔ ∃ last, times.getLast? = some last ∧ now - last ≤ ttl := by
  constructor
  · rintro ⟨time, hmem, hrecent⟩
    cases times using List.reverseRecOn with
    | nil => cases hmem
    | append_singleton before last =>
        have hlater : time ≤ last := by
          rcases List.mem_append.mp hmem with hbefore | hlast
          · exact (List.pairwise_append.mp hordered).2.2 time hbefore last (by simp)
          · exact Nat.le_of_eq (List.mem_singleton.mp hlast)
        exact ⟨last, by simp, by omega⟩
  · rintro ⟨last, hlast, hrecent⟩
    exact ⟨last, List.mem_of_getLast? hlast, hrecent⟩

theorem InOrder.times (h : InOrder hellos) (id : DeviceId) : (times hellos id).Pairwise (· ≤ ·) := by
  apply List.pairwise_map.mpr
  exact h.filter _

theorem mem_times : time ∈ times hellos id ↔ ⟨id, time⟩ ∈ hellos := by
  simp only [times, List.mem_map, List.mem_filter, decide_eq_true_eq]
  constructor
  · rintro ⟨hello, ⟨hmem, rfl⟩, rfl⟩
    exact hmem
  · intro hmem
    exact ⟨⟨id, time⟩, ⟨hmem, rfl⟩, rfl⟩

/-- Those are listed whose kept time is within the time to live. -/
theorem mem_peersAt : id ∈ (d.peersAt now).toList ↔
    ∃ time, d.seen.find? id = some time ∧ now - time ≤ d.ttl := by
  unfold peersAt DeviceSet.toList
  rw [Dict.mem_keys, Dict.find?_map, Dict.find?_filter]
  cases d.seen.find? id <;> simp [Option.filter]

/-- Whatever hellos came to a device while the clock did not go back, and whenever it is asked: its
peers are the others of whom some hello is no older than the time to live, one that is still to come
having no age. The device is not among them, and those of any other device are none. -/
theorem peers_follow_hellos (me : DeviceId) (ttl : Nat) (hellos : List Hello)
    (hordered : InOrder hellos) (now : Nat) :
    let d := heard me ttl hellos
    (∀ id, id ∈ (d.peersAt now).toList ↔
      id ≠ me ∧ ∃ time, ⟨id, time⟩ ∈ hellos ∧ now - time ≤ ttl) ∧
    me ∉ (d.peersAt now).toList ∧ d.neighbors me now = d.peersAt now ∧
    ∀ id, id ≠ me → d.neighbors id now = .empty := by
  intro d
  have hlisted : ∀ id, id ∈ (d.peersAt now).toList ↔
      id ≠ me ∧ ∃ time, ⟨id, time⟩ ∈ hellos ∧ now - time ≤ ttl := by
    intro id
    have hrecent : (∃ time ∈ times hellos id, now - time ≤ ttl) ↔
        ∃ last, (times hellos id).getLast? = some last ∧ now - last ≤ ttl :=
      exists_recent_iff (hordered.times id)
    simp only [mem_times] at hrecent
    rw [mem_peersAt, ttl_heard, find?_heard, hrecent]
    by_cases hown : id = me
    · simp [hown]
    · simp [hown]
  refine ⟨hlisted, ?_, ?_, ?_⟩
  · intro hmem
    exact ((hlisted me).mp hmem).1 rfl
  · exact if_pos (me_heard hellos).symm
  · intro id hother
    apply if_neg
    rwa [me_heard]

/-- Hellos of two peers, the device's own between them. -/
def meeting : List Hello := [⟨⟨"a"⟩, 0⟩, ⟨⟨"me"⟩, 1000⟩, ⟨⟨"b"⟩, 4000⟩]

/-- To the end of its time to live a hello counts, also one that is still to come. -/
theorem meeting_peers :
    InOrder meeting ∧ ⟨"a"⟩ ∈ ((heard ⟨"me"⟩ 5000 meeting).peersAt 5000).toList ∧
      ⟨"b"⟩ ∈ ((heard ⟨"me"⟩ 5000 meeting).peersAt 0).toList ∧
      ⟨"a"⟩ ∉ ((heard ⟨"me"⟩ 5000 meeting).peersAt 5001).toList ∧
      ⟨"me"⟩ ∉ ((heard ⟨"me"⟩ 5000 meeting).peersAt 1000).toList := by
  have hordered : InOrder meeting := by simp [InOrder, meeting]
  have hlisted := fun now id => (peers_follow_hellos ⟨"me"⟩ 5000 meeting hordered now).1 id
  refine ⟨hordered, ?_, ?_, ?_, ?_⟩
  · apply (hlisted 5000 _).mpr
    exact ⟨by decide, 0, by simp [meeting], by omega⟩
  · apply (hlisted 0 _).mpr
    exact ⟨by decide, 4000, by simp [meeting], by omega⟩
  · intro hmem
    obtain ⟨-, time, htime, hrecent⟩ := (hlisted 5001 _).mp hmem
    simp [meeting] at htime
    omega
  · exact (peers_follow_hellos ⟨"me"⟩ 5000 meeting hordered 1000).2.1

end FieldCalculus.PeerDirectory
