import FieldCalculus.Dict
import Mathlib.Data.List.Pairwise
import Mathlib.Logic.Function.Basic

/-!
What lookups in a dictionary see. Every operation is described by the lookups in its
result, and two dictionaries that answer all lookups alike are equal, so that later
proofs never open an entry list again.
-/

namespace FieldCalculus

namespace Entries

variable {κ ν : Type} [Ord κ] [Std.LawfulEqOrd κ]

theorem mem_of_find? {key : κ} {value : ν} {entries : List (κ × ν)}
    (h : find? key entries = some value) : (key, value) ∈ entries := by
  induction entries with
  | nil => simp [find?] at h
  | cons head rest ih =>
      obtain ⟨k, v⟩ := head
      simp only [find?] at h
      split at h
      · rename_i heq
        obtain rfl : key = k := Std.LawfulEqOrd.eq_of_compare heq
        simp only [Option.some.injEq] at h
        simp [h]
      · exact List.mem_cons_of_mem _ (ih h)

/-- In an ordered list a key stands at most once, so the entry under it is the one
that a lookup finds. -/
theorem find?_eq_some_iff {key : κ} {value : ν} {entries : List (κ × ν)}
    (hordered : Ordered entries) :
    find? key entries = some value ↔ (key, value) ∈ entries := by
  constructor
  · exact mem_of_find?
  · intro hmem
    induction entries with
    | nil => cases hmem
    | cons head rest ih =>
        obtain ⟨k, v⟩ := head
        obtain ⟨hhead, hrest⟩ := List.pairwise_cons.mp hordered
        rcases List.mem_cons.mp hmem with hfirst | hlater
        · cases hfirst
          simp [find?]
        · have hlt : compare k key = .lt := hhead _ hlater
          have hne : compare key k ≠ .eq := by
            intro heq
            obtain rfl : key = k := Std.LawfulEqOrd.eq_of_compare heq
            rw [Std.ReflOrd.compare_self] at hlt
            cases hlt
          rw [find?, if_neg hne]
          exact ih hrest hlater

omit [Std.LawfulEqOrd κ] in
/-- Storing pairs leaves no entries but these and those of before. -/
theorem mem_insertAll {entry : κ × ν} {entries pairs : List (κ × ν)}
    (h : entry ∈ insertAll entries pairs) : entry ∈ pairs ∨ entry ∈ entries := by
  induction pairs generalizing entries with
  | nil => exact Or.inr h
  | cons pair rest ih =>
      rcases ih h with hrest | hold
      · exact Or.inl (List.mem_cons_of_mem _ hrest)
      · rcases mem_insert hold with rfl | hmem
        · exact Or.inl List.mem_cons_self
        · exact Or.inr hmem

/-- A key that stands somewhere in the list is found, in order or not. -/
theorem exists_find?_of_mem_keys {key : κ} {entries : List (κ × ν)}
    (h : key ∈ entries.map Prod.fst) : ∃ value, find? key entries = some value := by
  induction entries with
  | nil => cases h
  | cons head rest ih =>
      obtain ⟨k, v⟩ := head
      rw [find?]
      split
      · exact ⟨v, rfl⟩
      · rename_i hne
        rcases List.mem_cons.mp h with rfl | hrest
        · exact absurd Std.ReflOrd.compare_self hne
        · exact ih hrest

theorem keys_subset_insert (key : κ) (value : ν) (entries : List (κ × ν)) :
    key :: entries.map Prod.fst ⊆ (insert key value entries).map Prod.fst := by
  induction entries with
  | nil => exact List.Subset.refl _
  | cons head rest ih =>
      obtain ⟨k, v⟩ := head
      obtain ⟨hkey, hrest⟩ := List.cons_subset.mp ih
      rw [insert]
      split
      · exact List.Subset.refl _
      · rename_i heq
        obtain rfl : key = k := Std.LawfulEqOrd.eq_of_compare heq
        simp
      · simp only [List.map_cons, List.cons_subset]
        exact ⟨List.mem_cons_of_mem _ hkey, List.mem_cons_self, List.subset_cons_of_subset _ hrest⟩

theorem keys_subset_insertAll (entries pairs : List (κ × ν)) :
    pairs.map Prod.fst ++ entries.map Prod.fst ⊆ (insertAll entries pairs).map Prod.fst := by
  induction pairs generalizing entries with
  | nil => exact List.Subset.refl _
  | cons pair rest ih =>
      obtain ⟨hrest, hbefore⟩ := List.append_subset.mp (ih (insert pair.1 pair.2 entries))
      have hkeys := keys_subset_insert pair.1 pair.2 entries
      rw [List.map_cons, List.cons_append, List.cons_subset, List.append_subset]
      exact ⟨hbefore (hkeys List.mem_cons_self), hrest,
        fun key hkey => hbefore (hkeys (List.mem_cons_of_mem _ hkey))⟩

theorem find?_filter {entries : List (κ × ν)} (hordered : Ordered entries)
    (keep : κ → ν → Bool) (key : κ) :
    find? key (entries.filter fun e => keep e.1 e.2) =
      (find? key entries).filter (keep key) := by
  apply Option.ext
  intro value
  rw [find?_eq_some_iff (List.Pairwise.filter _ hordered), List.mem_filter,
    ← find?_eq_some_iff hordered, Option.filter_eq_some_iff]

section Order

variable {κ ν : Type} [Ord κ] [Std.TransOrd κ]

/-- Two lists that strictly increase are equal when they have the same members. -/
private theorem eq_of_strictly_increasing {α : Type} (less : α → α → Prop)
    (hirrefl : ∀ x, ¬less x x) (htrans : ∀ {x y z}, less x y → less y z → less x z)
    {a b : List α} (ha : a.Pairwise less) (hb : b.Pairwise less) (h : ∀ x, x ∈ a ↔ x ∈ b) :
    a = b := by
  have hnodup : ∀ {l : List α}, l.Pairwise less → l.Nodup := by
    intro l hl
    refine hl.imp ?_
    rintro x y hxy rfl
    exact hirrefl x hxy
  have hperm : a.Perm b := (List.perm_ext_iff_of_nodup (hnodup ha) (hnodup hb)).mpr h
  refine hperm.eq_of_pairwise ?_ ha hb
  intro x y _ _ hxy hyx
  exact absurd (htrans hxy hyx) (hirrefl x)

theorem not_lt_self (key : κ) : compare key key ≠ .lt := by
  rw [Std.ReflOrd.compare_self]
  simp

/-- Entry lists in order are equal when they hold the same entries. -/
theorem Ordered.ext {a b : List (κ × ν)} (ha : Ordered a) (hb : Ordered b)
    (h : ∀ entry, entry ∈ a ↔ entry ∈ b) : a = b :=
  eq_of_strictly_increasing (fun x y : κ × ν => compare x.1 y.1 = .lt)
    (fun entry => not_lt_self entry.1) Std.TransCmp.lt_trans ha hb h

/-- Entry lists in order list the same keys in the same order when they have the same
keys. -/
theorem Ordered.keys_ext {μ : Type} {a : List (κ × ν)} {b : List (κ × μ)} (ha : Ordered a)
    (hb : Ordered b) (h : ∀ key, key ∈ a.map Prod.fst ↔ key ∈ b.map Prod.fst) :
    a.map Prod.fst = b.map Prod.fst :=
  eq_of_strictly_increasing (fun x y : κ => compare x y = .lt) not_lt_self
    Std.TransCmp.lt_trans
    (List.pairwise_map.mpr ha) (List.pairwise_map.mpr hb) h

theorem Ordered.nodup_keys {entries : List (κ × ν)} (h : Ordered entries) :
    (entries.map Prod.fst).Nodup := by
  have hincreasing : (entries.map Prod.fst).Pairwise fun a b => compare a b = .lt :=
    List.pairwise_map.mpr h
  refine hincreasing.imp ?_
  rintro a b hless rfl
  exact not_lt_self a hless

omit [Ord κ] [Std.TransOrd κ] in
/-- Lists with the same keys are related entry by entry when values under one key are. -/
theorem forall₂_of_keys_eq {μ : Type} {related : ν → μ → Prop} {a : List (κ × ν)}
    {b : List (κ × μ)} (hkeys : a.map Prod.fst = b.map Prod.fst)
    (h : ∀ key v w, (key, v) ∈ a → (key, w) ∈ b → related v w) :
    List.Forall₂ (fun x y => x.1 = y.1 ∧ related x.2 y.2) a b := by
  induction a generalizing b with
  | nil =>
      cases b with
      | nil => exact .nil
      | cons _ _ => cases hkeys
  | cons x a ih =>
      cases b with
      | nil => cases hkeys
      | cons y b =>
          obtain ⟨key, v⟩ := x
          obtain ⟨key', w⟩ := y
          simp only [List.map_cons, List.cons.injEq] at hkeys
          obtain ⟨rfl, hrest⟩ := hkeys
          refine .cons ⟨rfl, h key v w (by simp) (by simp)⟩ (ih hrest ?_)
          intro k v' w' hv hw
          exact h k v' w' (List.mem_cons_of_mem _ hv) (List.mem_cons_of_mem _ hw)

omit [Ord κ] [Std.TransOrd κ] in
theorem rel_find?_of_forall₂ [Ord κ] {μ : Type} {related : ν → μ → Prop} {a : List (κ × ν)}
    {b : List (κ × μ)} (h : List.Forall₂ (fun x y => x.1 = y.1 ∧ related x.2 y.2) a b) (key : κ) :
    Option.Rel related (find? key a) (find? key b) := by
  induction h with
  | nil => exact .none
  | @cons x y _ _ hfirst _ ih =>
      obtain ⟨k, v⟩ := x
      obtain ⟨_, w⟩ := y
      obtain ⟨rfl, hrelated⟩ := hfirst
      rw [find?, find?]
      split
      · exact .some hrelated
      · exact ih

end Order

end Entries

namespace Dict

variable {κ ν μ : Type} [Ord κ] [Std.LawfulEqOrd κ]

theorem find?_eq_some_iff {d : Dict κ ν} {key : κ} {value : ν} :
    d.find? key = some value ↔ (key, value) ∈ d.entries :=
  Entries.find?_eq_some_iff d.ordered

theorem mem_keys {d : Dict κ ν} {key : κ} : key ∈ d.keys ↔ (d.find? key).isSome := by
  rw [Option.isSome_iff_exists, keys, List.mem_map]
  constructor
  · rintro ⟨⟨k, v⟩, hmem, rfl⟩
    exact ⟨v, find?_eq_some_iff.mpr hmem⟩
  · rintro ⟨v, hv⟩
    exact ⟨(key, v), find?_eq_some_iff.mp hv, rfl⟩

/-! ## Lookups after each operation -/

theorem find?_filter (d : Dict κ ν) (keep : κ → ν → Bool) (key : κ) :
    (d.filter keep).find? key = (d.find? key).filter (keep key) :=
  Entries.find?_filter d.ordered keep key

theorem find?_mapWithKey (d : Dict κ ν) (f : κ → ν → μ) (key : κ) :
    (d.mapWithKey f).find? key = (d.find? key).map (f key) := by
  apply Option.ext
  intro value
  rw [find?_eq_some_iff, Option.map_eq_some_iff]
  simp only [mapWithKey, List.mem_map, Prod.exists, Prod.mk.injEq, find?_eq_some_iff]
  constructor
  · rintro ⟨k, v, hmem, rfl, rfl⟩
    exact ⟨v, hmem, rfl⟩
  · rintro ⟨v, hmem, rfl⟩
    exact ⟨key, v, hmem, rfl, rfl⟩

theorem find?_map (d : Dict κ ν) (f : ν → μ) (key : κ) :
    (d.map f).find? key = (d.find? key).map f :=
  find?_mapWithKey d (fun _ => f) key

theorem find?_erase [DecidableEq κ] (d : Dict κ ν) (key other : κ) :
    (d.erase key).find? other = if other = key then none else d.find? other := by
  rw [erase, find?_filter]
  split
  · rename_i heq
    cases h : d.find? other <;> simp [Option.filter, heq]
  · rename_i hne
    cases h : d.find? other <;> simp [Option.filter, Ne.symm hne]

section Update

variable [Std.TransOrd κ]

/-- A dictionary is determined by what its lookups answer. -/
theorem ext_find? {a b : Dict κ ν} (h : ∀ key, a.find? key = b.find? key) : a = b := by
  have hentries : a.entries = b.entries := by
    refine a.ordered.ext b.ordered ?_
    rintro ⟨key, value⟩
    rw [← find?_eq_some_iff, ← find?_eq_some_iff, h]
  cases a
  cases b
  simpa using hentries

/-- Dictionaries are related entry by entry when their lookups are related. -/
theorem forall₂_iff_rel_find? (related : ν → μ → Prop) {a : Dict κ ν} {b : Dict κ μ} :
    List.Forall₂ (fun x y => x.1 = y.1 ∧ related x.2 y.2) a.entries b.entries ↔
      ∀ key, Option.Rel related (a.find? key) (b.find? key) := by
  constructor
  · exact Entries.rel_find?_of_forall₂
  · intro h
    refine Entries.forall₂_of_keys_eq (a.ordered.keys_ext b.ordered ?_) ?_
    · intro key
      have hrelated := h key
      change key ∈ a.keys ↔ key ∈ b.keys
      rw [mem_keys, mem_keys]
      revert hrelated
      cases a.find? key <;> cases b.find? key <;> rintro ⟨⟩ <;> rfl
    · intro key v w hv hw
      have hrelated := h key
      rw [find?_eq_some_iff.mpr hv, find?_eq_some_iff.mpr hw] at hrelated
      cases hrelated with
      | some hvalues => exact hvalues

theorem find?_insert [DecidableEq κ] (d : Dict κ ν) (key other : κ) (value : ν) :
    (d.insert key value).find? other = if other = key then some value else d.find? other := by
  split
  · rename_i heq
    rw [heq, find?_insert_self]
  · rename_i hne
    exact find?_insert_ne d hne value

theorem find?_modify [DecidableEq κ] (d : Dict κ ν) (key other : κ) (f : ν → ν) :
    (d.modify key f).find? other =
      if other = key then (d.find? key).map f else d.find? other := by
  unfold modify
  split
  · rename_i v hv
    rw [find?_insert, hv]
    rfl
  · rename_i hnone
    split
    · rename_i heq
      rw [heq, hnone]
      rfl
    · rfl

/-- A change of what is there brings in no key. -/
theorem isSome_find?_modify [DecidableEq κ] (d : Dict κ ν) (key other : κ) (f : ν → ν) :
    ((d.modify key f).find? other).isSome = (d.find? other).isSome := by
  rw [find?_modify]
  split
  · rename_i heq
    rw [Option.isSome_map, heq]
  · rfl

theorem find?_upsert [DecidableEq κ] (d : Dict κ ν) (key other : κ) (fresh : ν)
    (f : ν → ν) :
    (d.upsert key fresh f).find? other =
      if other = key then some (f ((d.find? key).getD fresh)) else d.find? other := by
  rw [upsert, find?_insert]

theorem insert_comm [DecidableEq κ] (d : Dict κ ν) {key other : κ} (hne : key ≠ other)
    (v w : ν) : (d.insert key v).insert other w = (d.insert other w).insert key v := by
  apply ext_find?
  intro asked
  simp only [find?_insert]
  by_cases hkey : asked = key
  · subst hkey
    rw [if_neg hne, if_pos rfl, if_pos rfl]
  · rw [if_neg hkey, if_neg hkey]

/-- Changes commute if they are made under different keys or commute themselves. -/
theorem upsert_comm [DecidableEq κ] (d : Dict κ ν) {key other : κ} (fresh : ν) {f g : ν → ν}
    (hcomm : key = other → ∀ v, g (f v) = f (g v)) :
    (d.upsert key fresh f).upsert other fresh g = (d.upsert other fresh g).upsert key fresh f := by
  apply ext_find?
  intro asked
  simp only [find?_upsert]
  by_cases hsame : key = other
  · subst hsame
    by_cases hkey : asked = key
    · simp [hkey, hcomm rfl]
    · simp [hkey]
  · by_cases hkey : asked = key
    · subst hkey
      simp [hsame]
    · simp [hkey, Ne.symm hsame]

theorem insertAll_cons (d : Dict κ ν) (pair : κ × ν) (rest : List (κ × ν)) :
    d.insertAll (pair :: rest) = (d.insert pair.1 pair.2).insertAll rest := rfl

theorem ofList_concat (pairs : List (κ × ν)) (pair : κ × ν) :
    ofList (pairs ++ [pair]) = (ofList pairs).insert pair.1 pair.2 := by
  have hentries : (ofList (pairs ++ [pair])).entries =
      ((ofList pairs).insert pair.1 pair.2).entries := List.foldl_append
  exact ext_find? fun key => congrArg (Entries.find? key) hentries

/-- Whatever a lookup finds after storing pairs is one of them or was there before. -/
theorem mem_or_find?_of_insertAll {d : Dict κ ν} {pairs : List (κ × ν)} {key : κ}
    {value : ν} (h : (d.insertAll pairs).find? key = some value) :
    (key, value) ∈ pairs ∨ d.find? key = some value := by
  rw [find?_eq_some_iff] at h ⊢
  exact Entries.mem_insertAll h

theorem mem_of_find?_ofList {pairs : List (κ × ν)} {key : κ} {value : ν}
    (h : (ofList pairs).find? key = some value) : (key, value) ∈ pairs := by
  rcases mem_or_find?_of_insertAll h with hmem | hempty
  · exact hmem
  · cases hempty

theorem find?_insertAll_isSome [DecidableEq κ] {d : Dict κ ν} {pairs : List (κ × ν)} {key : κ}
    (h : key ∈ pairs.map Prod.fst ∨ (d.find? key).isSome) :
    ((d.insertAll pairs).find? key).isSome := by
  induction pairs generalizing d with
  | nil =>
      rcases h with hmem | hsome
      · cases hmem
      · exact hsome
  | cons pair rest ih =>
      rw [insertAll_cons]
      apply ih
      rw [find?_insert]
      by_cases heq : key = pair.1
      · simp [heq]
      · simpa [heq] using h

/-- Pairs that are stored hide what was there before. -/
theorem find?_insertAll [DecidableEq κ] (d : Dict κ ν) (pairs : List (κ × ν)) (key : κ) :
    (d.insertAll pairs).find? key = ((ofList pairs).find? key).or (d.find? key) := by
  induction pairs generalizing d with
  | nil => rfl
  | cons pair rest ih =>
      rw [ofList, insertAll_cons, insertAll_cons, ih, ih (Dict.empty.insert _ _), Option.or_assoc,
        find?_insert, find?_insert]
      split
      · rfl
      · rfl

/-- A key that comes with one value only has this value in the dictionary of the pairs. -/
theorem find?_ofList_of_mem [DecidableEq κ] {pairs : List (κ × ν)} {key : κ} {value : ν}
    (hmem : (key, value) ∈ pairs) (hunique : ∀ other, (key, other) ∈ pairs → other = value) :
    (ofList pairs).find? key = some value := by
  have hsome : ((ofList pairs).find? key).isSome :=
    find?_insertAll_isSome (Or.inl (List.mem_map_of_mem hmem))
  obtain ⟨other, hother⟩ := Option.isSome_iff_exists.mp hsome
  rw [hother, hunique other (mem_of_find?_ofList hother)]

/-- Renaming the keys one to one renames what is found. -/
theorem find?_ofList_map [DecidableEq κ] {ρ : Type} [Ord ρ] [Std.TransOrd ρ] [Std.LawfulEqOrd ρ]
    [DecidableEq ρ] {f : κ → ρ} (hf : Function.Injective f) (pairs : List (κ × ν)) (key : κ) :
    (ofList (pairs.map fun pair => (f pair.1, pair.2))).find? (f key) =
      (ofList pairs).find? key := by
  induction pairs with
  | nil => rfl
  | cons pair rest ih =>
      rw [List.map_cons, ofList, ofList, insertAll_cons, insertAll_cons, find?_insertAll,
        find?_insertAll _ rest, ih, find?_insert, find?_insert]
      simp only [hf.eq_iff]
      rfl

/-- A dictionary built by asking `answer` about each of some keys. -/
theorem find?_insertAll_filterMap [DecidableEq κ] (d : Dict κ ν) (keys : List κ)
    (answer : κ → Option ν) (key : κ) :
    (d.insertAll (keys.filterMap fun k => (answer k).map fun v => (k, v))).find? key =
      if key ∈ keys then (answer key).or (d.find? key) else d.find? key := by
  induction keys generalizing d with
  | nil => rfl
  | cons head rest ih =>
      cases hanswer : answer head with
      | none =>
          rw [List.filterMap_cons_none (by simp [hanswer]), ih]
          by_cases heq : key = head
          · subst heq
            simp [hanswer]
          · simp [heq]
      | some v =>
          rw [List.filterMap_cons_some (by simp [hanswer]; rfl), insertAll_cons, ih]
          simp only [find?_insert]
          by_cases heq : key = head
          · subst heq
            simp [hanswer]
          · simp [heq]

theorem find?_ofList_filterMap [DecidableEq κ] (keys : List κ) (answer : κ → Option ν)
    (key : κ) :
    (ofList (keys.filterMap fun k => (answer k).map fun v => (k, v))).find? key =
      if key ∈ keys then answer key else none := by
  rw [ofList, find?_insertAll_filterMap]
  simp

/-- A dictionary is what its entries make when they are stored one by one. -/
theorem ofList_entries [DecidableEq κ] (d : Dict κ ν) : ofList d.entries = d := by
  apply ext_find?
  intro key
  cases hfound : d.find? key with
  | some value =>
      refine find?_ofList_of_mem (find?_eq_some_iff.mp hfound) ?_
      intro other hother
      rw [← find?_eq_some_iff, hfound] at hother
      exact (Option.some.inj hother).symm
  | none =>
      rw [Option.eq_none_iff_forall_ne_some]
      intro value hvalue
      rw [find?_eq_some_iff.mpr (mem_of_find?_ofList hvalue)] at hfound
      cases hfound

end Update

end Dict

/-- Entries in order stay as they are when they are stored one by one. -/
theorem Entries.Ordered.insertAll_nil {κ ν : Type} [Ord κ] [Std.TransOrd κ] [Std.LawfulEqOrd κ]
    [DecidableEq κ] {entries : List (κ × ν)} (h : Ordered entries) :
    Entries.insertAll [] entries = entries :=
  congrArg Dict.entries (Dict.ofList_entries ⟨entries, h⟩)

end FieldCalculus
