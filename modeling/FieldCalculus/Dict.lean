/-!
Dictionaries with a canonical form: an entry list whose keys strictly increase.
Two dictionaries that answer every lookup alike are the same list, so equality
of environments, exports and tables is equality of what they hold.

The operations are first defined on bare entry lists, because the values of the
calculus nest such lists inside themselves; `Dict` bundles a list with the proof
that it is in order.
-/

namespace FieldCalculus

/-! ## Bare entry lists, dictionaries while their keys increase -/

namespace Entries

variable {κ ν : Type} [Ord κ]

/-- The keys strictly increase from left to right. -/
def Ordered (entries : List (κ × ν)) : Prop :=
  entries.Pairwise fun a b => compare a.1 b.1 = .lt

/-- The value stored under `key`. -/
def find? (key : κ) : List (κ × ν) → Option ν
  | [] => none
  | (k, v) :: rest => if compare key k = .eq then some v else find? key rest

/-- Stores `value` under `key`, in place of what was there. -/
def insert (key : κ) (value : ν) : List (κ × ν) → List (κ × ν)
  | [] => [(key, value)]
  | (k, v) :: rest =>
    match compare key k with
    | .lt => (key, value) :: (k, v) :: rest
    | .eq => (key, value) :: rest
    | .gt => (k, v) :: insert key value rest

/-- Stores every pair in turn, so the last one given for a key stays. -/
def insertAll (entries : List (κ × ν)) (pairs : List (κ × ν)) : List (κ × ν) :=
  pairs.foldl (fun acc (k, v) => insert k v acc) entries

theorem mem_insert {key : κ} {value : ν} {entry : κ × ν} {entries : List (κ × ν)}
    (h : entry ∈ insert key value entries) : entry = (key, value) ∨ entry ∈ entries := by
  induction entries with
  | nil => simpa [insert] using h
  | cons head rest ih =>
    obtain ⟨k, v⟩ := head
    unfold insert at h
    split at h
    · simpa using h
    · rcases List.mem_cons.mp h with h | h
      · exact .inl h
      · exact .inr (List.mem_cons_of_mem _ h)
    · rcases List.mem_cons.mp h with h | h
      · exact .inr (h ▸ List.mem_cons_self)
      · exact (ih h).imp_right (List.mem_cons_of_mem _)

theorem Ordered.insert [Std.TransOrd κ] [Std.LawfulEqOrd κ] {entries : List (κ × ν)}
    (h : Ordered entries) (key : κ) (value : ν) : Ordered (insert key value entries) := by
  induction entries with
  | nil => exact List.pairwise_singleton _ _
  | cons head rest ih =>
    obtain ⟨k, v⟩ := head
    obtain ⟨hhead, hrest⟩ := List.pairwise_cons.mp h
    unfold Entries.insert
    split
    · rename_i hlt
      refine List.pairwise_cons.mpr ⟨fun e he => ?_, h⟩
      rcases List.mem_cons.mp he with he | he
      · exact he ▸ hlt
      · exact Std.TransCmp.lt_trans hlt (hhead e he)
    · rename_i heq
      have hk : key = k := Std.LawfulEqOrd.eq_of_compare heq
      exact List.pairwise_cons.mpr ⟨fun e he => hk ▸ hhead e he, hrest⟩
    · rename_i hgt
      refine List.pairwise_cons.mpr ⟨fun e he => ?_, ih hrest⟩
      rcases mem_insert he with he | he
      · exact he ▸ Std.OrientedCmp.lt_of_gt hgt
      · exact hhead e he

theorem Ordered.insertAll [Std.TransOrd κ] [Std.LawfulEqOrd κ] {entries : List (κ × ν)}
    (h : Ordered entries) (pairs : List (κ × ν)) : Ordered (insertAll entries pairs) := by
  induction pairs generalizing entries with
  | nil => exact h
  | cons pair rest ih => exact ih (h.insert pair.1 pair.2)

theorem find?_insert_self [Std.ReflOrd κ] (key : κ) (value : ν) (entries : List (κ × ν)) :
    find? key (insert key value entries) = some value := by
  induction entries with
  | nil => simp [insert, find?]
  | cons head rest ih =>
    obtain ⟨k, v⟩ := head
    unfold insert
    split
    · simp [find?]
    · simp [find?]
    · rename_i hgt
      simp [find?, hgt, ih]

theorem find?_insert_ne [Std.TransOrd κ] [Std.LawfulEqOrd κ] {key other : κ}
    (h : other ≠ key) (value : ν) (entries : List (κ × ν)) :
    find? other (insert key value entries) = find? other entries := by
  have hne : compare other key ≠ .eq := fun he => h (Std.LawfulEqOrd.eq_of_compare he)
  induction entries with
  | nil => simp [insert, find?, hne]
  | cons head rest ih =>
    obtain ⟨k, v⟩ := head
    unfold insert
    split
    · simp [find?, hne]
    · rename_i heq
      obtain rfl : key = k := Std.LawfulEqOrd.eq_of_compare heq
      simp [find?, hne]
    · simp [find?, ih]

end Entries

/-- A finite map from `κ` to `ν`, its entries in increasing order of the keys. -/
structure Dict (κ ν : Type) [Ord κ] where
  entries : List (κ × ν)
  ordered : Entries.Ordered entries

namespace Dict

variable {κ ν μ : Type} [Ord κ]

/-- The dictionary that holds nothing. -/
def empty : Dict κ ν := ⟨[], List.Pairwise.nil⟩

instance : EmptyCollection (Dict κ ν) := ⟨empty⟩
instance : Inhabited (Dict κ ν) := ⟨empty⟩

instance [DecidableEq κ] [DecidableEq ν] : DecidableEq (Dict κ ν) := fun a b =>
  if h : a.entries = b.entries then
    .isTrue (by cases a; cases b; simpa using h)
  else
    .isFalse fun hab => h (congrArg Dict.entries hab)

/-- The value stored under `key`. -/
def find? (d : Dict κ ν) (key : κ) : Option ν := Entries.find? key d.entries

/-- Whether something is stored under `key`. -/
def contains (d : Dict κ ν) (key : κ) : Bool := (d.find? key).isSome

/-- How many keys are in use. -/
def size (d : Dict κ ν) : Nat := d.entries.length

/-- Whether no key is in use. -/
def isEmpty (d : Dict κ ν) : Bool := d.entries.isEmpty

/-- The keys in increasing order. -/
def keys (d : Dict κ ν) : List κ := d.entries.map Prod.fst

/-- The values in the order of their keys. -/
def values (d : Dict κ ν) : List ν := d.entries.map Prod.snd

/-- Keeps the entries that pass the test. -/
def filter (d : Dict κ ν) (keep : κ → ν → Bool) : Dict κ ν :=
  ⟨d.entries.filter fun e => keep e.1 e.2, d.ordered.filter _⟩

/-- Removes what is stored under `key`. -/
def erase (d : Dict κ ν) (key : κ) : Dict κ ν :=
  d.filter fun k _ => compare key k != .eq

/-- Replaces each value by a function of its key and itself. -/
def mapWithKey (d : Dict κ ν) (f : κ → ν → μ) : Dict κ μ :=
  ⟨d.entries.map fun e => (e.1, f e.1 e.2),
    by simpa [Entries.Ordered, List.pairwise_map] using d.ordered⟩

/-- Replaces each value by a function of itself. -/
def map (d : Dict κ ν) (f : ν → μ) : Dict κ μ := d.mapWithKey fun _ v => f v

section Update

variable [Std.TransOrd κ] [Std.LawfulEqOrd κ]

/-- Stores `value` under `key`, in place of what was there. -/
def insert (d : Dict κ ν) (key : κ) (value : ν) : Dict κ ν :=
  ⟨Entries.insert key value d.entries, d.ordered.insert key value⟩

/-- Stores every pair in turn, so the last one given for a key stays. -/
def insertAll (d : Dict κ ν) (pairs : List (κ × ν)) : Dict κ ν :=
  ⟨Entries.insertAll d.entries pairs, d.ordered.insertAll pairs⟩

/-- The dictionary of the pairs; of two with one key the later stays. -/
def ofList (pairs : List (κ × ν)) : Dict κ ν := empty.insertAll pairs

/-- Applies `f` to what is stored under `key`, if anything is. -/
def modify (d : Dict κ ν) (key : κ) (f : ν → ν) : Dict κ ν :=
  match d.find? key with
  | some v => d.insert key (f v)
  | none => d

/-- Applies `f` to what is stored under `key`, or to `fresh` if nothing is. -/
def upsert (d : Dict κ ν) (key : κ) (fresh : ν) (f : ν → ν) : Dict κ ν :=
  d.insert key (f ((d.find? key).getD fresh))

@[simp] theorem find?_insert_self (d : Dict κ ν) (key : κ) (value : ν) :
    (d.insert key value).find? key = some value :=
  Entries.find?_insert_self key value d.entries

theorem find?_insert_ne (d : Dict κ ν) {key other : κ} (h : other ≠ key) (value : ν) :
    (d.insert key value).find? other = d.find? other :=
  Entries.find?_insert_ne h value d.entries

end Update

@[simp] theorem find?_empty (key : κ) : (empty : Dict κ ν).find? key = none := rfl

end Dict

end FieldCalculus
