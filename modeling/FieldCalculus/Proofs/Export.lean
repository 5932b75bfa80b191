import FieldCalculus.Export
import FieldCalculus.Proofs.Dict
import Mathlib.Data.List.Forall2

/-!
What exports and remembered states hold: an export holds what was put into it and the
result at the root, and a state takes over the values at `rep` paths.
-/

namespace FieldCalculus

theorem Path.endsIn_root (kind : SlotKind) : Path.endsIn Path.root kind = false := rfl

theorem Path.endsIn_unique {path : Path} {kind other : SlotKind} (h : Path.endsIn path kind)
    (hother : Path.endsIn path other) : kind = other := by
  unfold Path.endsIn at h hother
  cases hlast : path.getLast? with
  | none =>
      rw [hlast] at h
      cases h
  | some slot =>
      rw [hlast, Option.any_some, decide_eq_true_eq] at h hother
      rw [← h, ← hother]

theorem Path.endsIn_push (path : Path) (slot : Slot) (kind : SlotKind) :
    Path.endsIn (path.push slot) kind = decide (slot.kind = kind) := by
  simp [Path.endsIn, Path.push]

namespace Export

theorem get?_ofPuts (puts : List (Path × Value)) (root : Value) (path : Path) :
    (ofPuts puts root).get? path =
      if path = Path.root then some root else (Dict.ofList puts).find? path :=
  Dict.find?_insert _ _ _ _

/-- Away from the root, an export holds only what was put into it. -/
theorem mem_of_get?_ofPuts {puts : List (Path × Value)} {root value : Value} {path : Path}
    (hpath : path ≠ Path.root) (h : (ofPuts puts root).get? path = some value) :
    (path, value) ∈ puts := by
  rw [get?_ofPuts, if_neg hpath] at h
  exact Dict.mem_of_find?_ofList h

/-- An export has values at the root and where something was put. -/
theorem contains_ofPuts {puts : List (Path × Value)} {root : Value} {path : Path} :
    (ofPuts puts root).contains path ↔ path = Path.root ∨ path ∈ puts.map Prod.fst := by
  change ((ofPuts puts root).get? path).isSome ↔ _
  rw [get?_ofPuts]
  constructor
  · intro h
    split at h
    · exact Or.inl ‹_›
    · obtain ⟨value, hvalue⟩ := Option.isSome_iff_exists.mp h
      exact Or.inr (List.mem_map_of_mem (Dict.mem_of_find?_ofList hvalue))
  · intro h
    split
    · rfl
    · exact Dict.find?_insertAll_isSome (Or.inl (h.resolve_left ‹_›))

/-- An export holds the result and what was put into it. -/
theorem mem_toList_ofPuts {puts : List (Path × Value)} {root : Value} {entry : Path × Value}
    (h : entry ∈ (ofPuts puts root).toList) : entry.2 = root ∨ entry ∈ puts := by
  obtain ⟨path, v⟩ := entry
  have hfound : (ofPuts puts root).get? path = some v := Dict.find?_eq_some_iff.mpr h
  by_cases hpath : path = Path.root
  · rw [get?_ofPuts, if_pos hpath] at hfound
    exact Or.inl (Option.some.inj hfound).symm
  · exact Or.inr (mem_of_get?_ofPuts hpath hfound)

theorem equalEntries_iff {xs ys : List (Path × Value)} : equals.equalEntries xs ys ↔
    List.Forall₂ (fun x y => x.1 = y.1 ∧ x.2.equals y.2) xs ys := by
  induction xs generalizing ys with
  | nil =>
      cases ys with
      | nil => simp [equals.equalEntries]
      | cons y ys =>
          rw [List.forall₂_nil_left_iff]
          simp [equals.equalEntries]
  | cons x xs ih =>
      cases ys with
      | nil =>
          rw [List.forall₂_nil_right_iff]
          simp [equals.equalEntries]
      | cons y ys =>
          rw [List.forall₂_cons, ← ih, equals.equalEntries, Bool.and_eq_true, Bool.and_eq_true,
            beq_iff_eq]

/-- Exports are equal to programs when what they hold at each path is. -/
theorem equals_iff {a b : Export} : a.equals b ↔
    ∀ path, Option.Rel (fun v w : Value => v.equals w) (a.get? path) (b.get? path) :=
  equalEntries_iff.trans (Dict.forall₂_iff_rel_find? fun v w : Value => v.equals w)

/-- The programs' equality is identity where it is so for the values. -/
theorem eq_of_equals {a b : Export}
    (hvalues : ∀ x ∈ a.toList, ∀ y ∈ b.toList, x.2.equals y.2 → x.2 = y.2) (h : a.equals b) :
    a = b := by
  have hentries : a.entries = b.entries := by
    apply Dict.ext_find?
    intro path
    have hequal : Option.Rel _ (a.entries.find? path) (b.entries.find? path) :=
      equals_iff.mp h path
    cases hv : a.entries.find? path with
    | none =>
        rw [hv] at hequal
        generalize b.entries.find? path = found at hequal ⊢
        cases hequal
        rfl
    | some v =>
        rw [hv] at hequal
        cases hw : b.entries.find? path with
        | none =>
            rw [hw] at hequal
            cases hequal
        | some w =>
            rw [hw, Option.rel_some_some] at hequal
            have hsame : v = w := hvalues _ (Dict.find?_eq_some_iff.mp hv) _
              (Dict.find?_eq_some_iff.mp hw) hequal
            rw [hsame]
  cases a
  cases b
  exact congrArg Export.mk hentries

end Export

/-- A round writes the values that it recorded at `rep` slots over the earlier ones. -/
theorem DeviceState.get?_absorb_eq (state : DeviceState) (exported : Export) (path : Path) :
    (state.absorb exported).get? path =
      if Path.endsIn path .rep then (exported.get? path).or (state.get? path)
      else state.get? path := by
  have hentries : exported.repEntries =
      (exported.entries.filter fun path _ => Path.endsIn path .rep).entries := rfl
  unfold absorb DeviceState.get?
  rw [hentries, Dict.find?_insertAll, Dict.ofList_entries, Dict.find?_filter]
  cases hfound : exported.entries.find? path <;> cases hends : Path.endsIn path .rep <;>
    simp [Export.get?, hfound]

end FieldCalculus
