import FieldCalculus.Yaml.Print
import FieldCalculus.Yaml.Read

/-!
Printed characters at their places. Lines end where a text says so, whatever stands before and
behind; blanks at the start of a line are passed over, and what comes next keeps its column.
-/

namespace FieldCalculus.Yaml

/-- What holds of all characters of a text is decided on the text: a library that decides
statements about every character must not be asked. -/
instance decidableForallMem {p : Char → Prop} [DecidablePred p] (s : List Char) :
    Decidable (∀ c ∈ s, p c) :=
  List.decidableBAll p s

/-! ## Places -/

/-- The column behind a text that starts in a column. -/
def endColumn : Nat → List Char → Nat
  | column, [] => column
  | column, c :: rest => if isBreak c then endColumn 0 rest else endColumn (column + 1) rest

/-- The line behind a text that starts on a line. -/
def endLine (line : Nat) (s : List Char) : Nat := line + s.countP isBreak

section Places

variable {line column : Nat} {a b : List Char}

theorem cells_append (line column : Nat) (a b : List Char) :
    cells line column (a ++ b) =
      cells line column a ++ cells (endLine line a) (endColumn column a) b := by
  induction a generalizing line column with
  | nil => rfl
  | cons c rest ih =>
      rw [List.cons_append, cells, cells, endLine, List.countP_cons, endColumn]
      cases hbreak : isBreak c with
      | true =>
          rw [if_pos rfl, if_pos rfl, if_pos rfl, ih, endLine, if_pos rfl, List.cons_append]
          congr 3
          omega
      | false =>
          simp only [Bool.false_eq_true, if_false]
          rw [ih, List.cons_append]
          rfl

theorem endColumn_of_line (column : Nat) (h : ∀ c ∈ a, isBreak c = false) :
    endColumn column a = column + a.length := by
  induction a generalizing column with
  | nil => rfl
  | cons c rest ih =>
      have hrest := ih (column + 1) fun d hd => h d (List.mem_cons_of_mem _ hd)
      rw [endColumn, h c List.mem_cons_self, if_neg (by decide), hrest, List.length_cons]
      omega

theorem endLine_of_line (line : Nat) (h : ∀ c ∈ a, isBreak c = false) : endLine line a = line := by
  have hnone : a.countP isBreak = 0 := by
    rw [List.countP_eq_zero]
    intro c hc
    rw [h c hc]
    decide
  rw [endLine, hnone]
  rfl

theorem endColumn_append (column : Nat) (a b : List Char) :
    endColumn column (a ++ b) = endColumn (endColumn column a) b := by
  induction a generalizing column with
  | nil => rfl
  | cons c rest ih =>
      rw [List.cons_append, endColumn, endColumn]
      split <;> exact ih _

theorem endLine_append (line : Nat) (a b : List Char) :
    endLine line (a ++ b) = endLine (endLine line a) b := by
  rw [endLine, endLine, endLine, List.countP_append, Nat.add_assoc]

theorem endColumn_cons_of_line {c : Char} (h : isBreak c = false) :
    endColumn column (c :: b) = endColumn (column + 1) b := by
  rw [endColumn, h, if_neg (by decide)]

theorem endLine_cons_of_line {c : Char} (h : isBreak c = false) :
    endLine line (c :: b) = endLine line b := by
  rw [endLine, endLine, List.countP_cons_of_neg (by simp [h])]

/-- What stands on the same line. -/
theorem cells_append_of_line (line column : Nat) (b : List Char) (h : ∀ c ∈ a, isBreak c = false) :
    cells line column (a ++ b) = cells line column a ++ cells line (column + a.length) b := by
  rw [cells_append, endLine_of_line line h, endColumn_of_line column h]

theorem map_char_cells (line column : Nat) (s : List Char) :
    (cells line column s).map Cell.char = s := by
  induction s generalizing line column with
  | nil => rfl
  | cons c rest ih =>
      rw [cells, List.map_cons]
      split <;> rw [ih]

theorem length_cells (line column : Nat) (s : List Char) :
    (cells line column s).length = s.length := by
  rw [← List.length_map Cell.char, map_char_cells]

theorem cells_cons_of_line {c : Char} (h : isBreak c = false) :
    cells line column (c :: b) = ⟨c, line, column⟩ :: cells line (column + 1) b := by
  rw [cells, h, if_neg (by decide)]

theorem cells_cons_of_break {c : Char} (h : isBreak c) :
    cells line column (c :: b) = ⟨c, line, column⟩ :: cells (line + 1) 0 b := by
  rw [cells, if_pos h]

theorem head?_cells (line column : Nat) (s : List Char) :
    (cells line column s).head? = s.head?.map fun c => ⟨c, line, column⟩ := by
  cases s <;> rfl

theorem any_head?_cells (p : Char → Bool) (line column : Nat) (s : List Char) :
    ((cells line column s).head?.any fun c => p c.char) = s.head?.any p := by
  cases s <;> rfl

theorem blankNext_cells (line column : Nat) (s : List Char) :
    blankNext (cells line column s) = s.head?.all isBlank := by
  cases s <;> rfl

theorem takeWhile_cells (p : Char → Bool) (line column : Nat) (s : List Char) :
    ((cells line column s).takeWhile fun c => p c.char).map Cell.char = s.takeWhile p := by
  induction s generalizing line column with
  | nil => rfl
  | cons c rest ih =>
      rw [cells, List.takeWhile_cons, List.takeWhile_cons]
      dsimp only
      split
      · rw [List.map_cons]
        split <;> rw [ih]
      · rfl

/-- What follows a front of a text. -/
theorem dropWhile_cells {p : Char → Bool} (line column : Nat) (ha : ∀ c ∈ a, p c)
    (hb : ∀ c ∈ b.head?, p c = false) :
    ((cells line column (a ++ b)).dropWhile fun c => p c.char) =
      cells (endLine line a) (endColumn column a) b := by
  have hfront : ∀ c ∈ cells line column a, p c.char := by
    intro c hc
    have hchar := List.mem_map_of_mem (f := Cell.char) hc
    rw [map_char_cells] at hchar
    exact ha c.char hchar
  rw [cells_append, List.dropWhile_append_of_pos hfront]
  cases b with
  | nil => rfl
  | cons c rest => exact List.dropWhile_cons_of_neg (by simp [hb c rfl])

theorem takeWhile_append_of_stop {p : Char → Bool} (ha : ∀ c ∈ a, p c)
    (hb : ∀ c ∈ b.head?, p c = false) : (a ++ b).takeWhile p = a := by
  rw [List.takeWhile_append_of_pos ha]
  cases b with
  | nil => simp
  | cons c rest => simp [hb c rfl]

/-- The longest front of a text whose characters are of one kind. -/
theorem exists_span (p : Char → Bool) (s : List Char) :
    ∃ a b, s = a ++ b ∧ (∀ c ∈ a, p c) ∧ ∀ c ∈ b.head?, p c = false := by
  induction s with
  | nil => exact ⟨[], [], rfl, nofun, nofun⟩
  | cons c rest ih =>
      cases hc : p c with
      | false =>
          refine ⟨[], c :: rest, rfl, nofun, ?_⟩
          rintro d ⟨⟩
          exact hc
      | true =>
          obtain ⟨a, b, rfl, ha, hb⟩ := ih
          refine ⟨c :: a, b, rfl, ?_, hb⟩
          intro d hd
          rcases List.mem_cons.mp hd with rfl | hlater
          · exact hc
          · exact ha d hlater

/-- Texts are taken apart into characters of other kinds and whole runs of one kind. -/
theorem run_induction (p : Char → Bool) {P : List Char → Prop} (nil : P [])
    (char : ∀ c s, p c = false → P s → P (c :: s))
    (run : ∀ a b, a ≠ [] → (∀ c ∈ a, p c) → (∀ c ∈ b.head?, p c = false) → P b → P (a ++ b))
    (s : List Char) : P s := by
  induction hlength : s.length using Nat.strongRecOn generalizing s with
  | ind n ih =>
      obtain ⟨a, b, rfl, ha, hb⟩ := exists_span p s
      subst hlength
      cases a with
      | nil =>
          cases b with
          | nil => exact nil
          | cons c rest => exact char c rest (hb c rfl) (ih rest.length (Nat.lt_succ_self _) rest rfl)
      | cons c rest =>
          refine run _ b (List.cons_ne_nil _ _) ha hb (ih b.length ?_ b rfl)
          rw [List.length_append, List.length_cons]
          omega

end Places

/-! ## Blanks -/

theorem isBreak_of_eq_space {c : Char} (h : c = ' ') : isBreak c = false := by
  subst h
  decide

theorem isBlank_of_isBreak {c : Char} (h : isBreak c) : isBlank c := by
  rw [isBlank, h, Bool.or_true]

theorem isBreak_of_not_isBlank {c : Char} (h : isBlank c = false) : isBreak c = false := by
  rw [isBlank, Bool.or_eq_false_iff] at h
  exact h.2

theorem isBreak_of_mem_spaces {n : Nat} : ∀ c ∈ spaces n, isBreak c = false := by
  intro c hc
  exact isBreak_of_eq_space (List.eq_of_mem_replicate hc)

theorem length_spaces (n : Nat) : (spaces n).length = n := List.length_replicate

/-- A text that has ended or starts with neither a blank nor a comment. -/
def Starts (s : List Char) : Prop := ∀ c ∈ s.head?, isBlank c = false ∧ c ≠ '#'

theorem Starts.cons {c : Char} {s : List Char} (hblank : isBlank c = false) (hcomment : c ≠ '#') :
    Starts (c :: s) := by
  rintro d ⟨⟩
  exact ⟨hblank, hcomment⟩

section Skip

variable {tabs : Nat → Bool} {line column : Nat} {s : List Char}

theorem skip_of_starts (h : Starts s) : skip tabs (cells line column s) = cells line column s := by
  cases s with
  | nil => rfl
  | cons c rest =>
      obtain ⟨hblank, hcomment⟩ := h c rfl
      simp only [isBlank, Bool.or_eq_false_iff, decide_eq_false_iff_not] at hblank
      rw [skip, cells, skip.go, hblank.2, if_neg (by decide), if_neg (by simp [hblank.1]),
        if_neg hcomment]

theorem skip_cons_space (rest : List Char) :
    skip tabs (cells line column (' ' :: rest)) = skip tabs (cells line (column + 1) rest) := by
  rw [cells_cons_of_line (by decide)]
  rfl

theorem skip_spaces (n : Nat) :
    skip tabs (cells line column (spaces n ++ s)) = skip tabs (cells line (column + n) s) := by
  induction n generalizing column with
  | zero => rfl
  | succ n ih =>
      have hcons : spaces (n + 1) ++ s = ' ' :: (spaces n ++ s) := rfl
      rw [hcons, skip_cons_space, ih]
      congr 2
      omega

theorem skip_cons_break {c : Char} (h : isBreak c) (rest : List Char) :
    skip tabs (cells line column (c :: rest)) = skip tabs (cells (line + 1) 0 rest) := by
  rw [cells_cons_of_break h, skip, skip.go, h, if_pos rfl]

/-- Indentation is passed over. -/
theorem skip_indented (n : Nat) (h : Starts s) :
    skip tabs (cells line column (spaces n ++ s)) = cells line (column + n) s := by
  rw [skip_spaces, skip_of_starts h]

/-- The end of a line and the indentation of the next are passed over. -/
theorem skip_line (n : Nat) (h : Starts s) :
    skip tabs (cells line column ('\n' :: (spaces n ++ s))) = cells (line + 1) n s := by
  rw [skip_cons_break (by decide), skip_indented n h, Nat.zero_add]

end Skip

/-! ## Markers -/

theorem isMarker_of_head {mark : Char} {cs : List Cell} (h : ∀ c ∈ cs.head?, 0 < c.column) :
    isMarker mark cs = false := by
  match cs with
  | [] => rfl
  | [_] => rfl
  | [_, _] => rfl
  | a :: b :: c :: rest =>
      have hcolumn : decide (a.column = 0) = false := decide_eq_false (Nat.ne_of_gt (h a rfl))
      rw [isMarker, hcolumn]
      rfl

/-- Documents end only at the start of a line. -/
theorem atEnd_of_column {line column : Nat} {s : List Char} (hcolumn : 0 < column) (hs : s ≠ []) :
    atEnd (cells line column s) = false := by
  obtain ⟨c, rest, rfl⟩ := List.exists_cons_of_ne_nil hs
  have hhead : ∀ d ∈ (cells line column (c :: rest)).head?, 0 < d.column := by
    rintro d ⟨⟩
    exact hcolumn
  rw [atEnd, isMarker_of_head hhead, isMarker_of_head hhead]
  rfl

/-! ## Starts of nodes -/

/-- Whether a text starts with a sign and a blank behind it. -/
def startsSign (sign : Char) : List Char → Bool
  | c :: rest => c = sign && rest.head?.all isBlank
  | [] => false

theorem isSign_cells {sign : Char} (hsign : isBreak sign = false) (line column : Nat)
    (s : List Char) : isSign sign (cells line column s) = startsSign sign s := by
  cases s with
  | nil => rfl
  | cons c rest =>
      cases hbreak : isBreak c with
      | true =>
          have hne : c ≠ sign := by
            rintro rfl
            rw [hbreak] at hsign
            cases hsign
          rw [cells_cons_of_break hbreak, isSign, startsSign, decide_eq_false hne]
          rfl
      | false => rw [cells_cons_of_line hbreak, isSign, startsSign, blankNext_cells]

/-- Whether a text starts with a mark that is repeated twice. -/
def startsMarker (mark : Char) (s : List Char) : Bool := [mark, mark, mark].isPrefixOf s

theorem isMarker_of_startsMarker {mark : Char} {line column : Nat} {s : List Char}
    (h : startsMarker mark s = false) : isMarker mark (cells line column s) = false := by
  have hchars := map_char_cells line column s
  match hcells : cells line column s with
  | [] => rfl
  | [_] => rfl
  | [_, _] => rfl
  | a :: b :: c :: rest =>
      rw [hcells] at hchars
      rw [← hchars] at h
      rw [isMarker, Bool.eq_false_iff]
      intro hmarker
      simp only [Bool.and_eq_true, decide_eq_true_eq] at hmarker
      obtain ⟨⟨⟨⟨-, ha⟩, hb⟩, hc⟩, -⟩ := hmarker
      simp [startsMarker, ha, hb, hc] at h

/-- A text that a document does not end before. -/
structure Stands (s : List Char) : Prop where
  some : s ≠ []
  dashes : startsMarker '-' s = false
  dots : startsMarker '.' s = false

theorem Stands.atEnd {s : List Char} (h : Stands s) (line column : Nat) :
    atEnd (cells line column s) = false := by
  obtain ⟨c, rest, rfl⟩ := List.exists_cons_of_ne_nil h.some
  rw [Yaml.atEnd, isMarker_of_startsMarker h.dashes, isMarker_of_startsMarker h.dots]
  rfl

end FieldCalculus.Yaml
