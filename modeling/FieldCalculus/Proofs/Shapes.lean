import FieldCalculus.Proofs.Simulation
import Mathlib.Data.List.Nodup
import Mathlib.Data.Nat.Dist

/-!
Lines and grids. Loops make their links one after the other, each pass adding to what stands, and
a device is known by a name only. No two numbers have one name, so that links can be told by the
numbers of the cells, and these by row and column.
-/

namespace FieldCalculus.Topology

variable {t : Topology} {x : DeviceId} {n i j width height row col : Nat}

theorem device_injective : Function.Injective device := by
  intro i j h
  have htext : "d" ++ toString i = "d" ++ toString j := congrArg DeviceId.name h
  have hdigits : Nat.toDigits 10 i = Nat.toDigits 10 j := by
    rw [Nat.toString_eq_ofList_toDigits, Nat.toString_eq_ofList_toDigits] at htext
    exact String.ofList_injective ((String.append_right_inj "d").mp htext)
  calc
    i = Nat.ofDigitChars 10 (Nat.toDigits 10 i) 0 := Nat.ofDigitChars_ten_toDigits.symm
    _ = Nat.ofDigitChars 10 (Nat.toDigits 10 j) 0 := by rw [hdigits]
    _ = j := Nat.ofDigitChars_ten_toDigits

/-- What holds after a loop held before it or was added by one of its passes. -/
theorem foldl_adds {α : Type} {pass : Topology → α → Topology} (holds : Topology → Prop)
    {adds : α → Prop} {items : List α}
    (hpass : ∀ t, ∀ item ∈ items, holds (pass t item) ↔ holds t ∨ adds item) (t : Topology) :
    holds (items.foldl pass t) ↔ holds t ∨ ∃ item ∈ items, adds item := by
  induction items generalizing t with
  | nil => simp
  | cons item rest ih =>
      have hrest : ∀ t, ∀ item ∈ rest, holds (pass t item) ↔ holds t ∨ adds item :=
        fun t item hitem => hpass t item (List.mem_cons_of_mem _ hitem)
      rw [List.foldl_cons, ih hrest, hpass t item List.mem_cons_self]
      simp [or_assoc]

/-- Devices that are numbered without a gap. -/
theorem devices_perm (h : ∀ x, x ∈ t.devices ↔ ∃ i < n, x = device i) :
    t.devices.Perm ((List.range n).map device) := by
  have hnodup : t.devices.Nodup := t.adjacency.ordered.nodup_keys
  apply (List.perm_ext_iff_of_nodup hnodup (List.nodup_range.map device_injective)).mpr
  intro x
  simp [h, eq_comm]

/-! ## Lines -/

theorem linked_line :
    (line n).Linked (device i) (device j) ↔ (i + 1 = j ∧ j < n) ∨ (j + 1 = i ∧ i < n) := by
  have hpass : ∀ t, ∀ k ∈ List.range (n - 1),
      (link t (device k) (device (k + 1))).Linked (device i) (device j) ↔
        t.Linked (device i) (device j) ∨ ((i = k ∧ j = k + 1) ∨ (i = k + 1 ∧ j = k)) := by
    intro t k hk
    simp [linked_link, device_injective.eq_iff]
  rw [line, foldl_adds (·.Linked (device i) (device j)) hpass]
  simp only [not_linked_empty, false_or, List.mem_range]
  constructor
  · rintro ⟨k, hk, h⟩
    omega
  · rintro (h | h)
    · exact ⟨i, by omega⟩
    · exact ⟨j, by omega⟩

/-- A device of a line comes in with a link, so that one alone is not there. -/
theorem mem_devices_line : x ∈ (line n).devices ↔ ∃ i < if n = 1 then 0 else n, x = device i := by
  have hpass : ∀ t, ∀ k ∈ List.range (n - 1),
      x ∈ (link t (device k) (device (k + 1))).devices ↔
        x ∈ t.devices ∨ (x = device k ∨ x = device (k + 1)) := by
    intro t k hk
    simp [mem_devices_link, device_injective.eq_iff]
  rw [line, foldl_adds (x ∈ ·.devices) hpass]
  simp only [not_mem_devices_empty, false_or, List.mem_range]
  constructor
  · rintro ⟨k, hk, rfl | rfl⟩
    · exact ⟨k, by split <;> omega, rfl⟩
    · exact ⟨k + 1, by split <;> omega, rfl⟩
  · rintro ⟨i, hi, rfl⟩
    split at hi
    · omega
    · by_cases hlast : i + 1 < n
      · exact ⟨i, by omega, Or.inl rfl⟩
      · refine ⟨i - 1, by omega, Or.inr ?_⟩
        rw [Nat.sub_add_cancel (by omega)]

/-- A line of any length but one has just the devices numbered below its length, each linked to
those before and behind it, and a simulation of it runs just these. A line of length one has
none. -/
theorem line_links_successors (n : Nat) :
    (line n).devices.Perm (if n = 1 then [] else (List.range n).map device) ∧
      (∀ i j, i < n → j < n →
        ((line n).Linked (device i) (device j) ↔ i + 1 = j ∨ j + 1 = i)) ∧
      ∀ program pacing,
        (Network.simulation program (line n) pacing).nodes.keys = (line n).devices ∧
          (Network.simulation program (line n) pacing).nodes.size = if n = 1 then 0 else n := by
  have hdevices := devices_perm fun x => mem_devices_line (n := n)
  refine ⟨?_, ?_, ?_⟩
  · by_cases hone : n = 1
    · subst hone
      simpa using hdevices
    · simpa [hone] using hdevices
  · intro i j hi hj
    rw [linked_line]
    omega
  · intro program pacing
    have hkeys := Network.keys_simulation program (line n) pacing
    have hsize : (Network.simulation program (line n) pacing).nodes.keys.length =
        if n = 1 then 0 else n := by
      rw [hkeys, hdevices.length_eq]
      simp
    exact ⟨hkeys, by rwa [Dict.keys, List.length_map] at hsize⟩

/-- In the middle of a line of four, and from one of its ends to the other. -/
theorem line_four_links_successors :
    (1 < 4 ∧ 2 < 4 ∧ (line 4).Linked (device 1) (device 2)) ∧
      (0 < 4 ∧ 3 < 4 ∧ ¬(line 4).Linked (device 0) (device 3)) ∧
      (Network.simulation .selfId (line 4) default).nodes.size = 4 := by
  obtain ⟨-, hlinked, hrun⟩ := line_links_successors 4
  refine ⟨⟨by decide, by decide, (hlinked 1 2 (by decide) (by decide)).mpr (by decide)⟩,
    ⟨by decide, by decide, fun h => ?_⟩, (hrun .selfId default).2⟩
  have hbeside := (hlinked 0 3 (by decide) (by decide)).mp h
  omega

/-- No pass of the loop brings in the only device of a line of one. -/
theorem line_one_empty :
    ¬(line 1).devices.Perm ((List.range 1).map device) ∧
      (Network.simulation .selfId (line 1) default).nodes.size ≠ 1 := by
  decide

/-! ## Grids -/

theorem cell_lt (hrow : row < height) (hcol : col < width) : row * width + col < width * height :=
  calc
    row * width + col < row * width + width := Nat.add_lt_add_left hcol _
    _ = (row + 1) * width := (Nat.succ_mul row width).symm
    _ ≤ height * width := Nat.mul_le_mul_right width hrow
    _ = width * height := Nat.mul_comm height width

theorem cell_div (hcol : col < width) : (row * width + col) / width = row := by
  rw [Nat.mul_comm, Nat.mul_add_div (by omega), Nat.div_eq_of_lt hcol, Nat.add_zero]

theorem cell_mod (hcol : col < width) : (row * width + col) % width = col := by
  rw [Nat.mul_comm, Nat.mul_add_mod, Nat.mod_eq_of_lt hcol]

theorem linked_link_if {p : Prop} [Decidable p] {a b : Nat} (hne : a ≠ b) :
    (if p then t.link (device a) (device b) else t).Linked (device i) (device j) ↔
      t.Linked (device i) (device j) ∨ (p ∧ ((i = a ∧ j = b) ∨ (i = b ∧ j = a))) := by
  by_cases hp : p <;> simp [hp, linked_link, device_injective.eq_iff, hne]

theorem mem_devices_link_if {p : Prop} [Decidable p] {a b : Nat} (hne : a ≠ b) :
    x ∈ (if p then t.link (device a) (device b) else t).devices ↔
      x ∈ t.devices ∨ (p ∧ (x = device a ∨ x = device b)) := by
  by_cases hp : p <;> simp [hp, mem_devices_link, device_injective.eq_iff, hne]

/-- The pass of a cell links it to another, which is the one to the right or the one below. -/
def Links (width height row col i j : Nat) : Prop :=
  i = row * width + col ∧ ((col + 1 < width ∧ j = i + 1) ∨ (row + 1 < height ∧ j = i + width))

theorem linked_linkCell (hcol : col < width) :
    (linkCell width height row t col).Linked (device i) (device j) ↔
      t.Linked (device i) (device j) ∨
        (Links width height row col i j ∨ Links width height row col j i) := by
  simp only [linkCell]
  rw [linked_link_if (by omega), linked_link_if (by omega), linked_addDevice]
  unfold Links
  grind

theorem mem_devices_linkCell (hcol : col < width) :
    x ∈ (linkCell width height row t col).devices ↔ x ∈ t.devices ∨
      (x = device (row * width + col) ∨
        ∃ i, Links width height row col (row * width + col) i ∧ x = device i) := by
  simp only [linkCell]
  rw [mem_devices_link_if (by omega), mem_devices_link_if (by omega), mem_devices_addDevice]
  unfold Links
  grind

/-- Two cells of a grid are linked when the pass of one of them linked the other. -/
theorem linked_grid :
    (grid width height).Linked (device i) (device j) ↔ ∃ row < height, ∃ col < width,
      Links width height row col i j ∨ Links width height row col j i := by
  have hpass : ∀ t, ∀ row ∈ List.range height,
      (linkRow width height t row).Linked (device i) (device j) ↔
        t.Linked (device i) (device j) ∨ ∃ col ∈ List.range width,
          (Links width height row col i j ∨ Links width height row col j i) := by
    intro t row _
    apply foldl_adds (·.Linked (device i) (device j))
    exact fun t col hcol => linked_linkCell (List.mem_range.mp hcol)
  rw [grid, foldl_adds (·.Linked (device i) (device j)) hpass]
  simp [not_linked_empty]

theorem mem_devices_grid : x ∈ (grid width height).devices ↔ ∃ i < width * height, x = device i := by
  have hpass : ∀ t, ∀ row ∈ List.range height,
      x ∈ (linkRow width height t row).devices ↔ x ∈ t.devices ∨ ∃ col ∈ List.range width,
        (x = device (row * width + col) ∨
          ∃ i, Links width height row col (row * width + col) i ∧ x = device i) := by
    intro t row _
    apply foldl_adds (x ∈ ·.devices)
    exact fun t col hcol => mem_devices_linkCell (List.mem_range.mp hcol)
  rw [grid, foldl_adds (x ∈ ·.devices) hpass]
  simp only [not_mem_devices_empty, false_or, List.mem_range]
  constructor
  · rintro ⟨row, hrow, col, hcol, rfl | ⟨i, ⟨-, ⟨hright, rfl⟩ | ⟨hbelow, rfl⟩⟩, rfl⟩⟩
    · exact ⟨_, cell_lt hrow hcol, rfl⟩
    · exact ⟨_, cell_lt hrow hright, rfl⟩
    · refine ⟨(row + 1) * width + col, cell_lt hbelow hcol, ?_⟩
      rw [Nat.succ_mul, Nat.add_right_comm]
  · rintro ⟨i, hi, rfl⟩
    have hwidth : 0 < width := Nat.pos_of_mul_pos_right (Nat.zero_lt_of_lt hi)
    refine ⟨i / width, Nat.div_lt_of_lt_mul hi, i % width, Nat.mod_lt i hwidth, Or.inl ?_⟩
    rw [Nat.div_add_mod']

/-- The second cell is the one to the right of the first or the one below it. -/
def Leads (width i j : Nat) : Prop :=
  (i / width = j / width ∧ i % width + 1 = j % width) ∨
    (i % width = j % width ∧ i / width + 1 = j / width)

/-- Rows end at the last column and columns in the last row. -/
theorem links_iff_leads (hi : i < width * height) (hj : j < width * height) :
    (∃ row < height, ∃ col < width, Links width height row col i j) ↔ Leads width i j := by
  have hwidth : 0 < width := Nat.pos_of_mul_pos_right (Nat.zero_lt_of_lt hi)
  constructor
  · rintro ⟨row, hrow, col, hcol, rfl, ⟨hright, rfl⟩ | ⟨hbelow, rfl⟩⟩
    · left
      rw [Nat.add_assoc, cell_div hcol, cell_mod hcol, cell_div hright, cell_mod hright]
      exact ⟨rfl, rfl⟩
    · right
      rw [Nat.add_right_comm, ← Nat.succ_mul, cell_div hcol, cell_mod hcol, cell_div hcol,
        cell_mod hcol]
      exact ⟨rfl, rfl⟩
  · intro h
    refine ⟨i / width, Nat.div_lt_of_lt_mul hi, i % width, Nat.mod_lt i hwidth,
      (Nat.div_add_mod' i width).symm, ?_⟩
    have hcell := Nat.div_add_mod' j width
    rcases h with ⟨hrow, hcol⟩ | ⟨hcol, hrow⟩
    · left
      refine ⟨hcol ▸ Nat.mod_lt j hwidth, ?_⟩
      rw [← hcell, ← hrow, ← hcol, ← Nat.add_assoc, Nat.div_add_mod']
    · right
      refine ⟨hrow ▸ Nat.div_lt_of_lt_mul hj, ?_⟩
      rw [← hcell, ← hrow, ← hcol, Nat.succ_mul, Nat.add_right_comm, Nat.div_add_mod']

/-- How many steps lead from one cell to the other along rows and columns. -/
def cellDistance (width i j : Nat) : Nat :=
  Nat.dist (i / width) (j / width) + Nat.dist (i % width) (j % width)

theorem cellDistance_eq_one : cellDistance width i j = 1 ↔ Leads width i j ∨ Leads width j i := by
  unfold cellDistance Leads Nat.dist
  omega

/-- A grid has one device for each cell, and two cells are linked exactly when one step along a
row or a column leads from one to the other. -/
theorem grid_links_adjacent_cells (width height : Nat) :
    (grid width height).devices.Perm ((List.range (width * height)).map device) ∧
      ∀ i j, i < width * height → j < width * height →
        ((grid width height).Linked (device i) (device j) ↔ cellDistance width i j = 1) := by
  refine ⟨devices_perm fun x => mem_devices_grid, ?_⟩
  intro i j hi hj
  rw [linked_grid, cellDistance_eq_one, ← links_iff_leads hi hj, ← links_iff_leads hj hi]
  simp only [and_or_left, exists_or]

/-- Two rows of three: the end of the first row is not linked to the beginning of the second, and
the middle of the one is linked to the middle of the other. -/
theorem two_rows_link_adjacent_cells :
    (2 < 3 * 2 ∧ 3 < 3 * 2 ∧ ¬(grid 3 2).Linked (device 2) (device 3)) ∧
      (1 < 3 * 2 ∧ 4 < 3 * 2 ∧ (grid 3 2).Linked (device 1) (device 4)) := by
  obtain ⟨-, hlinked⟩ := grid_links_adjacent_cells 3 2
  refine ⟨⟨by decide, by decide, fun h => ?_⟩, by decide, by decide,
    (hlinked 1 4 (by decide) (by decide)).mpr (by decide)⟩
  have hdistance := (hlinked 2 3 (by decide) (by decide)).mp h
  revert hdistance
  decide

end FieldCalculus.Topology
