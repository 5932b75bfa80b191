import FieldCalculus.Network.Topology
import FieldCalculus.Proofs.Dict

/-!
Topologies as relations. Whatever edits built a topology, being linked is symmetric and no
device is linked to itself.
-/

namespace FieldCalculus.Topology

/-- Whether the first device has the second as a neighbor. -/
def Linked (t : Topology) (a b : DeviceId) : Prop := (t.neighbors a).contains b

instance (t : Topology) (a b : DeviceId) : Decidable (t.Linked a b) :=
  inferInstanceAs (Decidable (_ = true))

/-- The topologies that edits can build. -/
inductive Built : Topology → Prop where
  | empty : Built .empty
  | addDevice {t : Topology} (h : Built t) (id : DeviceId) : Built (t.addDevice id)
  | link {t : Topology} (h : Built t) (a b : DeviceId) : Built (t.link a b)
  | unlink {t : Topology} (h : Built t) (a b : DeviceId) : Built (t.unlink a b)

variable {t : Topology} {a b x y : DeviceId}

/-! ## What an edit does to the links -/

theorem contains_insert (s : DeviceSet) (member other : DeviceId) :
    (s.insert member ()).contains other = (other = member || s.contains other) := by
  unfold Dict.contains
  rw [Dict.find?_insert]
  split
  · rename_i heq
    simp [heq]
  · rename_i hne
    simp [hne]

theorem contains_erase (s : DeviceSet) (member other : DeviceId) :
    (s.erase member).contains other = (other ≠ member && s.contains other) := by
  unfold Dict.contains
  rw [Dict.find?_erase]
  split
  · rename_i heq
    simp [heq]
  · rename_i hne
    simp [hne]

theorem neighbors_upsert (change : DeviceSet → DeviceSet) :
    Topology.neighbors ⟨t.adjacency.upsert a .empty change⟩ x =
      if x = a then change (t.neighbors a) else t.neighbors x := by
  unfold neighbors
  rw [Dict.find?_upsert]
  split
  · rfl
  · rfl

theorem neighbors_modify {change : DeviceSet → DeviceSet} (hempty : change .empty = .empty) :
    Topology.neighbors ⟨t.adjacency.modify a change⟩ x =
      if x = a then change (t.neighbors a) else t.neighbors x := by
  unfold neighbors
  rw [Dict.find?_modify]
  split
  · cases t.adjacency.find? a with
    | none => exact hempty.symm
    | some s => rfl
  · rfl

theorem neighbors_addDevice (id : DeviceId) : (t.addDevice id).neighbors x = t.neighbors x := by
  rw [addDevice, neighbors_upsert]
  split
  · rename_i heq
    rw [heq]
  · rfl

/-- A device that is already there is not added again. -/
theorem addDevice_of_mem {id : DeviceId} (h : id ∈ t.devices) : t.addDevice id = t := by
  have hadjacency : (t.addDevice id).adjacency = t.adjacency := by
    apply Dict.ext_find?
    intro other
    rw [addDevice, Dict.find?_upsert]
    split
    · rename_i heq
      obtain ⟨s, hs⟩ := Option.isSome_iff_exists.mp (Dict.mem_keys.mp h)
      rw [heq, hs]
      rfl
    · rfl
  exact congrArg Topology.mk hadjacency

theorem linked_addDevice (id : DeviceId) : (t.addDevice id).Linked x y ↔ t.Linked x y := by
  rw [Linked, neighbors_addDevice, Linked]

theorem neighbors_link (hne : a ≠ b) : (t.link a b).neighbors x =
    if x = b then (t.neighbors b).insert a ()
    else if x = a then (t.neighbors a).insert b () else t.neighbors x := by
  have hfirst : ∀ z, Topology.neighbors
      ⟨t.adjacency.upsert a .empty fun s => s.insert b ()⟩ z =
        if z = a then (t.neighbors a).insert b () else t.neighbors z := fun z =>
    neighbors_upsert _
  rw [link, if_neg hne]
  refine (neighbors_upsert (t := ⟨t.adjacency.upsert a .empty fun s => s.insert b ()⟩) _).trans ?_
  rw [hfirst, hfirst, if_neg (Ne.symm hne)]

theorem neighbors_unlink : (t.unlink a b).neighbors x =
    if x = b then (if b = a then (t.neighbors a).erase b else t.neighbors b).erase a
    else if x = a then (t.neighbors a).erase b else t.neighbors x := by
  have hfirst : ∀ z, Topology.neighbors ⟨t.adjacency.modify a fun s => s.erase b⟩ z =
      if z = a then (t.neighbors a).erase b else t.neighbors z := fun z =>
    neighbors_modify rfl
  rw [unlink]
  refine (neighbors_modify (t := ⟨t.adjacency.modify a fun s => s.erase b⟩) rfl).trans ?_
  rw [hfirst, hfirst]

theorem linked_link : (t.link a b).Linked x y ↔
    t.Linked x y ∨ (a ≠ b ∧ ((x = a ∧ y = b) ∨ (x = b ∧ y = a))) := by
  by_cases hne : a = b
  · rw [link, if_pos hne]
    simp [hne]
  · unfold Linked
    rw [neighbors_link hne]
    by_cases hb : x = b
    · subst hb
      simp [contains_insert, hne, Ne.symm hne, or_comm]
    · by_cases ha : x = a
      · subst ha
        simp [contains_insert, hne, or_comm]
      · simp [ha, hb]

theorem linked_unlink : (t.unlink a b).Linked x y ↔
    t.Linked x y ∧ ¬((x = a ∧ y = b) ∨ (x = b ∧ y = a)) := by
  unfold Linked
  rw [neighbors_unlink]
  by_cases hne : b = a
  · subst hne
    by_cases hb : x = b
    · subst hb
      simp [contains_erase, and_comm]
    · simp [hb]
  · by_cases hb : x = b
    · subst hb
      simp [contains_erase, hne, and_comm]
    · by_cases ha : x = a
      · subst ha
        simp [contains_erase, hb, and_comm]
      · simp [ha, hb]

theorem mem_devices (h : t.Linked x y) : x ∈ t.devices := by
  rw [devices, Dict.mem_keys]
  unfold Linked neighbors at h
  cases hfound : t.adjacency.find? x with
  | none =>
      rw [hfound] at h
      cases h
  | some s => rfl

/-! ## What an edit does to the devices -/

theorem mem_devices_addDevice (id : DeviceId) :
    x ∈ (t.addDevice id).devices ↔ x ∈ t.devices ∨ x = id := by
  simp only [devices, Dict.mem_keys, addDevice, Dict.find?_upsert]
  by_cases hx : x = id <;> simp [hx]

theorem mem_devices_link :
    x ∈ (t.link a b).devices ↔ x ∈ t.devices ∨ (a ≠ b ∧ (x = a ∨ x = b)) := by
  by_cases hne : a = b
  · simp [link, hne]
  · simp only [devices, link, if_neg hne, Dict.mem_keys, Dict.find?_upsert]
    by_cases hb : x = b
    · simp [hb, hne]
    · by_cases ha : x = a <;> simp [ha, hb, hne]

theorem mem_devices_unlink : x ∈ (t.unlink a b).devices ↔ x ∈ t.devices := by
  simp only [devices, unlink, Dict.mem_keys, Dict.isSome_find?_modify]

/-! ## Links of a built topology -/

theorem not_linked_empty : ¬Topology.empty.Linked x y := by
  intro h
  cases h

theorem not_mem_devices_empty : x ∉ Topology.empty.devices := by
  intro h
  cases h

namespace Built

theorem symm (h : t.Built) : ∀ {x y}, t.Linked x y → t.Linked y x := by
  induction h with
  | empty => exact fun hlinked => absurd hlinked not_linked_empty
  | addDevice _ id ih =>
      intro x y hlinked
      rw [linked_addDevice] at hlinked ⊢
      exact ih hlinked
  | link _ a b ih =>
      intro x y hlinked
      rw [linked_link] at hlinked ⊢
      rcases hlinked with hold | ⟨hne, hnew⟩
      · exact Or.inl (ih hold)
      · refine Or.inr ⟨hne, ?_⟩
        rcases hnew with ⟨hx, hy⟩ | ⟨hx, hy⟩
        · exact Or.inr ⟨hy, hx⟩
        · exact Or.inl ⟨hy, hx⟩
  | unlink _ a b ih =>
      intro x y hlinked
      rw [linked_unlink] at hlinked ⊢
      obtain ⟨hold, hkept⟩ := hlinked
      refine ⟨ih hold, ?_⟩
      rintro (⟨hy, hx⟩ | ⟨hy, hx⟩)
      · exact hkept (Or.inr ⟨hx, hy⟩)
      · exact hkept (Or.inl ⟨hx, hy⟩)

theorem irrefl (h : t.Built) : ∀ {x}, ¬t.Linked x x := by
  induction h with
  | empty => exact not_linked_empty
  | addDevice _ id ih =>
      intro x hlinked
      rw [linked_addDevice] at hlinked
      exact ih hlinked
  | link _ a b ih =>
      intro x hlinked
      rw [linked_link] at hlinked
      rcases hlinked with hold | ⟨hne, ⟨rfl, rfl⟩ | ⟨rfl, rfl⟩⟩
      · exact ih hold
      · exact hne rfl
      · exact hne rfl
  | unlink _ a b ih =>
      intro x hlinked
      rw [linked_unlink] at hlinked
      exact ih hlinked.1

theorem foldl {α : Type} {edit : Topology → α → Topology} (hedit : ∀ {t}, t.Built →
    ∀ i, (edit t i).Built) (h : t.Built) (is : List α) : (is.foldl edit t).Built := by
  induction is generalizing t with
  | nil => exact h
  | cons i rest ih => exact ih (hedit h i)

theorem line (n : Nat) : (Topology.line n).Built :=
  foldl (fun h _ => h.link _ _) .empty _

theorem grid (width height : Nat) : (Topology.grid width height).Built := by
  have hlink : ∀ {t : Topology} {p : Prop} [Decidable p] (a b : DeviceId), t.Built →
      (if p then t.link a b else t).Built := by
    intro t p _ a b h
    split
    · exact h.link a b
    · exact h
  have hcell : ∀ row {t : Topology}, t.Built → ∀ col, (linkCell width height row t col).Built :=
    fun _ _ h _ => hlink _ _ (hlink _ _ (h.addDevice _))
  exact foldl (fun h row => foldl (hcell row) h _) .empty _

end Built

end FieldCalculus.Topology
