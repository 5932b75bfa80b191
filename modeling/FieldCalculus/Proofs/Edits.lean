import FieldCalculus.Proofs.Topology
import Mathlib.Data.List.Induction

/-!
Topologies and the edits behind them. A link is kept once at each of its ends, and an edit changes
the two ends one after the other. Whatever the edits were, a link stands exactly when the last one
about the two devices made it, whichever of them it named first.
-/

namespace FieldCalculus.Topology

/-- A change of a topology. -/
inductive Edit where
  | addDevice (id : DeviceId)
  | link (a b : DeviceId)
  | unlink (a b : DeviceId)

namespace Edit

def apply (t : Topology) : Edit → Topology
  | .addDevice id => t.addDevice id
  | .link a b => t.link a b
  | .unlink a b => t.unlink a b

/-- What an edit says about two devices: that they are linked, that they are not, or nothing. -/
def verdict? (x y : DeviceId) : Edit → Option Bool
  | .addDevice _ => none
  | .link a b => if (x = a ∧ y = b) ∨ (x = b ∧ y = a) then some true else none
  | .unlink a b => if (x = a ∧ y = b) ∨ (x = b ∧ y = a) then some false else none

/-- A device is part of the network after an edit, whether or not it was before. -/
def Brings (x : DeviceId) : Edit → Prop
  | .addDevice id => x = id
  | .link a b => a ≠ b ∧ (x = a ∨ x = b)
  | .unlink _ _ => False

variable {t : Topology} {x y : DeviceId}

theorem built_apply (h : t.Built) (edit : Edit) : (edit.apply t).Built := by
  cases edit with
  | addDevice id => exact h.addDevice id
  | link a b => exact h.link a b
  | unlink a b => exact h.unlink a b

/-- The verdict of an edit counts, and where it has none all is as before. -/
theorem linked_apply (hself : ¬t.Linked x x) (edit : Edit) :
    (edit.apply t).Linked x y ↔
      (x ≠ y ∧ edit.verdict? x y = some true) ∨ (edit.verdict? x y = none ∧ t.Linked x y) := by
  cases edit with
  | addDevice id => simp [apply, verdict?, linked_addDevice]
  | link a b =>
      by_cases hpair : (x = a ∧ y = b) ∨ (x = b ∧ y = a)
      · have hends : a ≠ b ↔ x ≠ y := by
          rcases hpair with ⟨rfl, rfl⟩ | ⟨rfl, rfl⟩
          · rfl
          · exact ne_comm
        have hlinked : t.Linked x y → x ≠ y := by
          rintro h rfl
          exact hself h
        simp only [apply, verdict?, linked_link, hpair, hends, if_true]
        simpa using hlinked
      · simp [apply, verdict?, linked_link, hpair]
  | unlink a b =>
      by_cases hpair : (x = a ∧ y = b) ∨ (x = b ∧ y = a) <;>
        simp [apply, verdict?, linked_unlink, hpair]

theorem mem_devices_apply (edit : Edit) :
    x ∈ (edit.apply t).devices ↔ x ∈ t.devices ∨ edit.Brings x := by
  cases edit with
  | addDevice id => exact mem_devices_addDevice id
  | link a b => exact mem_devices_link
  | unlink a b => simp [apply, Brings, mem_devices_unlink]

end Edit

/-- The topology that edits of an empty one lead to. -/
def edited (edits : List Edit) : Topology := edits.foldl Edit.apply empty

/-- What the last edit about two devices said of them. -/
def lastVerdict? (edits : List Edit) (x y : DeviceId) : Option Bool :=
  (edits.filterMap (Edit.verdict? x y)).getLast?

variable {x y : DeviceId}

theorem edited_concat (edits : List Edit) (edit : Edit) :
    edited (edits ++ [edit]) = edit.apply (edited edits) :=
  List.foldl_append

theorem built_edited (edits : List Edit) : (edited edits).Built :=
  Built.foldl (fun h edit => edit.built_apply h) .empty edits

theorem lastVerdict?_concat (edits : List Edit) (edit : Edit) (x y : DeviceId) :
    lastVerdict? (edits ++ [edit]) x y = (edit.verdict? x y).or (lastVerdict? edits x y) := by
  unfold lastVerdict?
  rw [List.filterMap_append, List.getLast?_append]
  cases hverdict : edit.verdict? x y <;> simp [hverdict]

/-- Two devices are linked when the last edit about them said so. -/
theorem linked_edited (edits : List Edit) :
    (edited edits).Linked x y ↔ x ≠ y ∧ lastVerdict? edits x y = some true := by
  induction edits using List.reverseRecOn with
  | nil => simp [edited, lastVerdict?, not_linked_empty]
  | append_singleton edits edit ih =>
      rw [edited_concat, Edit.linked_apply (built_edited edits).irrefl, ih, lastVerdict?_concat]
      cases edit.verdict? x y <;> simp

/-- The devices are those that some edit brought in. -/
theorem mem_devices_edited (edits : List Edit) :
    x ∈ (edited edits).devices ↔ ∃ edit ∈ edits, edit.Brings x := by
  induction edits using List.reverseRecOn with
  | nil => simp [edited, not_mem_devices_empty]
  | append_singleton edits edit ih =>
      rw [edited_concat, Edit.mem_devices_apply, ih]
      simp [or_and_right, exists_or]

/-- Whatever the edits were, a device has another as a neighbor exactly when the last edit about
the two linked them. So being neighbors is symmetric, no device is a neighbor of itself, and all
neighbors are among the devices, which are those that some edit brought in. -/
theorem neighbors_follow_last_edit (edits : List Edit) :
    (∀ a b, (edited edits).Linked a b ↔ a ≠ b ∧ lastVerdict? edits a b = some true) ∧
      (∀ a b, (edited edits).Linked a b → (edited edits).Linked b a) ∧
      (∀ a, ¬(edited edits).Linked a a) ∧
      (∀ a b, (edited edits).Linked a b → b ∈ (edited edits).devices) ∧
      ∀ id, id ∈ (edited edits).devices ↔ ∃ edit ∈ edits, edit.Brings id := by
  have hbuilt := built_edited edits
  refine ⟨fun a b => linked_edited edits, fun a b h => hbuilt.symm h, fun a => hbuilt.irrefl, ?_,
    fun id => mem_devices_edited edits⟩
  intro a b h
  exact mem_devices (hbuilt.symm h)

/-- Two links of one device. One is cut and made again, each time from the other end, and so is
the second cut at last; between the two the device at its end is linked to itself. -/
def crossing : List Edit :=
  [.link ⟨"a"⟩ ⟨"b"⟩, .link ⟨"b"⟩ ⟨"c"⟩, .unlink ⟨"b"⟩ ⟨"a"⟩, .link ⟨"c"⟩ ⟨"c"⟩,
    .link ⟨"b"⟩ ⟨"a"⟩, .unlink ⟨"c"⟩ ⟨"b"⟩]

theorem crossing_follows_last_edit :
    (edited crossing).Linked ⟨"a"⟩ ⟨"b"⟩ ∧ (edited crossing).Linked ⟨"b"⟩ ⟨"a"⟩ ∧
      ¬(edited crossing).Linked ⟨"b"⟩ ⟨"c"⟩ ∧ ¬(edited crossing).Linked ⟨"c"⟩ ⟨"c"⟩ ∧
      ⟨"c"⟩ ∈ (edited crossing).devices := by
  obtain ⟨hlinked, hsymm, hself, -, hdevices⟩ := neighbors_follow_last_edit crossing
  have hkept : (edited crossing).Linked ⟨"a"⟩ ⟨"b"⟩ := (hlinked _ _).mpr (by decide)
  have hcut : lastVerdict? crossing ⟨"b"⟩ ⟨"c"⟩ = some false := by decide
  refine ⟨hkept, hsymm _ _ hkept, ?_, hself _, ?_⟩
  · intro h
    have hverdict := ((hlinked _ _).mp h).2
    rw [hcut] at hverdict
    cases hverdict
  · exact (hdevices _).mpr ⟨.link ⟨"b"⟩ ⟨"c"⟩, by simp [crossing], by simp [Edit.Brings]⟩

end FieldCalculus.Topology
