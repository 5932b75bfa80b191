import FieldCalculus.Proofs.Yaml.Cells

/-!
Plain texts are read up to where they end. Inside of them stands no colon before a blank and no
comment sign behind one, and the line below them either ends the text or lies too far to the left.
-/

namespace FieldCalculus.Yaml

/-! ## Blanks between words -/

theorem spanBlanks_cells {a b : List Char} (line column : Nat) (ha : ∀ c ∈ a, isBlank c)
    (hb : ∀ c ∈ b.head?, isBlank c = false) : spanBlanks (cells line column (a ++ b)) =
      (a, cells (endLine line a) (endColumn column a) b) := by
  rw [spanBlanks, takeWhile_cells, takeWhile_append_of_stop ha hb, dropWhile_cells line column ha hb]

theorem folded_of_line {gap : List Char} (h : ∀ c ∈ gap, isBreak c = false) : folded gap = gap := by
  have hnone : gap.filter isBreak = [] := by
    rw [List.filter_eq_nil_iff]
    intro c hc
    rw [h c hc]
    decide
  rw [folded, hnone]

/-! ## Colons and comments -/

/-- Whether no colon of a text stands before a blank or at the end, given what follows. -/
def colonsInside : List Char → List Char → Bool
  | [], _ => true
  | c :: s, after => !(c = ':' && (s ++ after).head?.all isBlank) && colonsInside s after

theorem colonsInside_append (a b after : List Char) :
    colonsInside (a ++ b) after = (colonsInside a (b ++ after) && colonsInside b after) := by
  induction a with
  | nil => rfl
  | cons c rest ih =>
      rw [List.cons_append, colonsInside, colonsInside, ih, List.append_assoc, Bool.and_assoc]

theorem follows_of_append {p q : Char → Bool} {a b : List Char} (h : follows p q (a ++ b) = false) :
    follows p q b = false := by
  induction a with
  | nil => exact h
  | cons c rest ih =>
      refine ih ?_
      cases hrest : rest ++ b with
      | nil => rfl
      | cons d others =>
          rw [List.cons_append, hrest, follows, Bool.or_eq_false_iff] at h
          exact h.2

theorem not_follows {p q : Char → Bool} {a b : List Char} {c d : Char}
    (h : follows p q (a ++ c :: d :: b) = false) (hc : p c) : q d = false := by
  have hpair := follows_of_append h
  rw [follows, Bool.or_eq_false_iff, hc, Bool.true_and] at hpair
  exact hpair.1

/-! ## Words -/

/-- Whether a word ends before this text. -/
def stopsWord : List Char → Bool
  | [] => true
  | c :: rest => isBlank c || (c = ':' && rest.head?.all isBlank)

theorem plainWord?_stop {line column : Nat} {after : List Char} (h : stopsWord after) :
    plainWord? false (cells line column after) = some ([], cells line column after) := by
  cases after with
  | nil => rfl
  | cons c rest =>
      rw [stopsWord, Bool.or_eq_true, Bool.and_eq_true, decide_eq_true_eq] at h
      rcases h with hblank | ⟨rfl, hnext⟩
      · rw [cells, plainWord?, hblank, Bool.true_or, Bool.true_or, if_pos rfl]
      · rw [cells_cons_of_line (by decide), plainWord?, blankNext_cells, hnext]
        rfl

/-- A word is read up to what ends it. -/
theorem plainWord?_cells {line : Nat} {after : List Char} (hstop : stopsWord after) :
    ∀ {word : List Char} {column : Nat}, (∀ c ∈ word, isBlank c = false) →
      colonsInside word after → plainWord? false (cells line column (word ++ after)) =
        some (word, cells line (column + word.length) after) := by
  intro word
  induction word with
  | nil => exact fun _ _ => plainWord?_stop hstop
  | cons c rest ih =>
      intro column hword hcolons
      have hblank := hword c List.mem_cons_self
      rw [colonsInside, Bool.and_eq_true, Bool.not_eq_true'] at hcolons
      have hrest : plainWord? false (cells line (column + 1) (rest ++ after)) =
          some (rest, cells line (column + 1 + rest.length) after) :=
        ih (fun d hd => hword d (List.mem_cons_of_mem _ hd)) hcolons.2
      rw [List.cons_append, cells_cons_of_line (isBreak_of_not_isBlank hblank), plainWord?,
        blankNext_cells, hblank, hcolons.1, hrest, List.length_cons]
      simp only [Bool.or_self, Bool.false_and, Bool.false_eq_true, if_false, Option.map_some]
      congr 3
      omega

/-! ## Plain texts -/

/-- What a plain text outside of brackets consists of, its start aside: words with spaces
between them. -/
structure Words (s : List Char) : Prop where
  some : s ≠ []
  line : ∀ c ∈ s, isBreak c = false ∧ c ≠ '\t'
  front : ∀ c ∈ s.head?, isBlank c = false
  back : s.getLast? ≠ .some ' '
  comments : follows isBlank (· = '#') s = false

/-- What follows ends a plain text that started on a line: no word goes on, and behind blanks
nothing is indented enough to belong to it. -/
structure Closes (indent line : Nat) (after : List Char) : Prop where
  stops : stopsWord after
  tabs : ∀ column, ((cells line column after).takeWhile fun c => isBlank c.char).any
    (fun c => c.char = '\t' && c.line != line && c.column < indent) = false
  dedent : ∀ column, ((spanBlanks (cells line column after)).1.isEmpty ||
    !plainGoesOn false indent line (spanBlanks (cells line column after)).2) = true

theorem Words.eq_space {s : List Char} (h : Words s) {c : Char} (hc : c ∈ s)
    (hblank : isBlank c) : c = ' ' := by
  obtain ⟨hbreak, htab⟩ := h.line c hc
  rw [isBlank, hbreak, Bool.or_false, Bool.or_eq_true, decide_eq_true_eq,
    decide_eq_true_eq] at hblank
  exact hblank.resolve_right htab

/-- Behind a gap in a plain text stands such a text again, and no comment. -/
theorem Words.behind {word gap rest : List Char} (h : Words (word ++ (gap ++ rest)))
    (hsome : gap ≠ []) (hgap : ∀ c ∈ gap, isBlank c) (hrest : ∀ c ∈ rest.head?, isBlank c = false) :
    (∀ c ∈ gap, c = ' ') ∧ Words rest ∧ ∀ c ∈ rest.head?, c ≠ '#' := by
  have hspaces : ∀ c ∈ gap, c = ' ' := fun c hc =>
    h.eq_space (List.mem_append_right _ (List.mem_append_left _ hc)) (hgap c hc)
  obtain ⟨before, last, rfl⟩ : ∃ before last, gap = before ++ [last] :=
    ⟨_, _, (List.dropLast_concat_getLast hsome).symm⟩
  have hlast : last ∈ before ++ [last] := List.mem_append_right _ List.mem_cons_self
  have hrestSome : rest ≠ [] := by
    rintro rfl
    have hback := h.back
    rw [List.append_nil, ← List.append_assoc, List.getLast?_concat] at hback
    exact hback (congrArg Option.some (hspaces last hlast))
  have hback : rest.getLast? ≠ .some ' ' := by
    have hback := h.back
    rwa [← List.append_assoc, List.getLast?_append, List.getLast?_eq_some_getLast hrestSome,
      Option.some_or, ← List.getLast?_eq_some_getLast hrestSome] at hback
  have hcomments := follows_of_append h.comments
  refine ⟨hspaces, ⟨hrestSome, fun c hc => h.line c ?_, hrest, hback,
    follows_of_append hcomments⟩, ?_⟩
  · exact List.mem_append_right _ (List.mem_append_right _ hc)
  · rw [List.append_assoc, List.singleton_append] at hcomments
    intro c hc
    cases rest with
    | nil => cases hc
    | cons d others =>
        cases hc
        exact of_decide_eq_false (not_follows hcomments (hgap last hlast))

/-- A plain text is one word, or a word, spaces and the rest of the text. -/
theorem Words.split {s : List Char} (h : Words s) :
    (∀ c ∈ s, isBlank c = false) ∨ ∃ word gap rest, s = word ++ (gap ++ rest) ∧ word ≠ [] ∧
      (∀ c ∈ word, isBlank c = false) ∧ gap ≠ [] ∧ (∀ c ∈ gap, c = ' ') ∧ Words rest ∧
        ∀ c ∈ rest.head?, c ≠ '#' := by
  obtain ⟨word, tail, rfl, hword, htail⟩ := exists_span (fun c => !isBlank c) s
  simp only [Bool.not_eq_true', Bool.not_eq_false'] at hword htail
  cases tail with
  | nil =>
      rw [List.append_nil]
      exact Or.inl hword
  | cons first others =>
      have hfirst : isBlank first := htail first rfl
      have hsome : word ≠ [] := by
        rintro rfl
        have hfront := h.front first rfl
        rw [hfirst] at hfront
        cases hfront
      obtain ⟨gap, rest, hothers, hgap, hrest⟩ := exists_span isBlank (first :: others)
      rw [hothers] at h ⊢
      have hgapSome : gap ≠ [] := by
        rintro rfl
        rw [List.nil_append] at hothers
        rw [← hothers] at hrest
        have hnot := hrest first rfl
        rw [hfirst] at hnot
        cases hnot
      obtain ⟨hspaces, hwords, hcomment⟩ := h.behind hgapSome hgap hrest
      exact Or.inr ⟨word, gap, rest, rfl, hsome, hword, hgapSome, hspaces, hwords, hcomment⟩

/-- How a plain text is read behind its first word. -/
theorem plain?_of_word {indent fuel line column : Nat} {c : Char} {s word : List Char}
    {next : List Cell}
    (hword : plainWord? false (cells line column (c :: s)) = some (word, next)) :
    plain? false indent (fuel + 1) (cells line column (c :: s)) = (do
      if (next.takeWhile fun c => isBlank c.char).any
          (fun c => c.char = '\t' && c.line != line && c.column < indent) then none
      else if word.isEmpty || (spanBlanks next).1.isEmpty ||
          !plainGoesOn false indent line (spanBlanks next).2 then
        some (word, (spanBlanks next).2)
      else do
        let (more, rest) ← plain? false indent fuel (spanBlanks next).2
        some (if more.isEmpty then (word, (spanBlanks next).2)
          else (word ++ folded (spanBlanks next).1 ++ more, rest))) := by
  rw [plain?, hword]
  rfl

section Spaces

variable {gap rest : List Char} (hgap : ∀ c ∈ gap, c = ' ')
  (hrest : ∀ c ∈ rest.head?, isBlank c = false)

include hgap hrest

theorem spanBlanks_spaces (line column : Nat) : spanBlanks (cells line column (gap ++ rest)) =
    (gap, cells line (column + gap.length) rest) := by
  have hblank : ∀ c ∈ gap, isBlank c := by
    intro c hc
    rw [hgap c hc]
    decide
  have hline : ∀ c ∈ gap, isBreak c = false := fun c hc => isBreak_of_eq_space (hgap c hc)
  rw [spanBlanks_cells line column hblank hrest, endLine_of_line line hline,
    endColumn_of_line column hline]

theorem no_tabs (line column : Nat) (p : Cell → Bool) :
    ((cells line column (gap ++ rest)).takeWhile fun c => isBlank c.char).any
      (fun c => c.char = '\t' && p c) = false := by
  have hblank : ∀ c ∈ gap, isBlank c := by
    intro c hc
    rw [hgap c hc]
    decide
  have hchars := takeWhile_cells isBlank line column (gap ++ rest)
  rw [takeWhile_append_of_stop hblank hrest] at hchars
  rw [List.any_eq_false]
  intro c hc
  have hchar : c.char ∈ gap := hchars ▸ List.mem_map_of_mem hc
  rw [hgap c.char hchar]
  simp

omit hgap in
/-- Behind spaces a plain text goes on, unless with a comment. -/
theorem plainGoesOn_spaces (hsome : rest ≠ []) (hcomment : ∀ c ∈ rest.head?, c ≠ '#')
    {indent line column : Nat} (hcolumn : 0 < column) :
    plainGoesOn false indent line (cells line column rest) := by
  obtain ⟨next, more, rfl⟩ := List.exists_cons_of_ne_nil hsome
  have hend : atEnd (cells line column (next :: more)) = false :=
    atEnd_of_column hcolumn (List.cons_ne_nil _ _)
  have hline := isBreak_of_not_isBlank (hrest next rfl)
  rw [cells_cons_of_line hline] at hend ⊢
  rw [plainGoesOn, hend]
  simpa using hcomment next rfl

/-- A word and spaces are read, and then what stands behind them. -/
theorem plain?_spaced {indent fuel line column : Nat} {word more : List Char} {cs : List Cell}
    (hword : word ≠ [] ∧ ∀ c ∈ word, isBlank c = false)
    (hcolons : colonsInside word (gap ++ rest)) (hgapSome : gap ≠ []) (hsome : rest ≠ [])
    (hcomment : ∀ c ∈ rest.head?, c ≠ '#') (hmore : more ≠ [])
    (hread : plain? false indent fuel (cells line (column + word.length + gap.length) rest) =
      some (more, cs)) :
    plain? false indent (fuel + 1) (cells line column (word ++ (gap ++ rest))) =
      some (word ++ (gap ++ more), cs) := by
  obtain ⟨c, others, rfl⟩ := List.exists_cons_of_ne_nil hword.1
  obtain ⟨first, spaces, rfl⟩ := List.exists_cons_of_ne_nil hgapSome
  obtain ⟨next, behind, rfl⟩ := List.exists_cons_of_ne_nil hmore
  have hstop : stopsWord (first :: spaces ++ rest) := by
    rw [hgap first List.mem_cons_self]
    rfl
  have hfirst : plainWord? false (cells line column
      (c :: (others ++ (first :: spaces ++ rest)))) = _ :=
    plainWord?_cells hstop hword.2 hcolons
  have hspan := spanBlanks_spaces hgap hrest line (column + (c :: others).length)
  have htabs := no_tabs hgap hrest line (column + (c :: others).length)
    fun c => c.line != line && c.column < indent
  have hhere : 0 < column + (c :: others).length + (first :: spaces).length := by
    rw [List.length_cons]
    omega
  have hgoesOn : plainGoesOn false indent line (cells line
      (column + (c :: others).length + (first :: spaces).length) rest) :=
    plainGoesOn_spaces hrest hsome hcomment hhere
  have hfolded : folded (first :: spaces) = first :: spaces :=
    folded_of_line fun d hd => isBreak_of_eq_space (hgap d hd)
  refine (plain?_of_word hfirst).trans ?_
  simp only [Bool.and_assoc] at htabs ⊢
  rw [htabs, if_neg (by decide), hspan, List.isEmpty_cons, List.isEmpty_cons, hgoesOn,
    if_neg (by decide), hread]
  change some (c :: others ++ folded (first :: spaces) ++ next :: behind, _) = _
  rw [hfolded, List.append_assoc]

end Spaces

/-- A plain text is read up to what ends it. -/
theorem plain?_cells {indent line : Nat} {after : List Char} (hcloses : Closes indent line after)
    {s : List Char} (hwords : Words s) (hcolons : colonsInside s after) {column fuel : Nat}
    (hfuel : s.length ≤ fuel) : plain? false indent fuel (cells line column (s ++ after)) =
      some (s, (spanBlanks (cells line (column + s.length) after)).2) := by
  -- every step reads a word and the spaces behind it
  induction fuel generalizing s column with
  | zero => exact absurd (List.eq_nil_of_length_eq_zero (Nat.le_zero.mp hfuel)) hwords.some
  | succ fuel ih =>
      rcases hwords.split with hword |
        ⟨word, gap, rest, rfl, hsome, hword, hgapSome, hgap, hrest, hcomment⟩
      · obtain ⟨c, others, rfl⟩ := List.exists_cons_of_ne_nil hwords.some
        have hread : plainWord? false (cells line column (c :: (others ++ after))) = _ :=
          plainWord?_cells hcloses.stops hword hcolons
        refine (plain?_of_word hread).trans ?_
        rw [hcloses.tabs, if_neg (by decide), List.isEmpty_cons, Bool.false_or, hcloses.dedent,
          if_pos rfl]
      · rw [colonsInside_append, colonsInside_append, Bool.and_eq_true, Bool.and_eq_true] at hcolons
        have hhead : (rest ++ after).head? = rest.head? := by
          obtain ⟨next, more, rfl⟩ := List.exists_cons_of_ne_nil hrest.some
          rfl
        have hshorter : rest.length ≤ fuel := by
          have hpos := List.length_pos_iff.mpr hsome
          simp only [List.length_append] at hfuel
          omega
        have hread : plain? false indent fuel (cells line (column + word.length + gap.length)
            (rest ++ after)) = _ := ih hrest hcolons.2.2 hshorter
        have hcolumn : column + word.length + gap.length + rest.length =
            column + (word ++ (gap ++ rest)).length := by
          simp only [List.length_append]
          omega
        rw [hcolumn] at hread
        rw [List.append_assoc, List.append_assoc]
        rw [List.append_assoc] at hcolons
        exact plain?_spaced hgap (hhead ▸ hrest.front) ⟨hsome, hword⟩ hcolons.1 hgapSome
          (by simp [hrest.some]) (hhead ▸ hcomment) hrest.some hread

/-! ## What can stand plain -/

/-- A text that can be written plain. -/
structure PlainText (s : List Char) : Prop where
  some : s ≠ []
  printable : ∀ c ∈ s, isPrintable c
  fits : fitsPlain s

section Facts

variable {s after : List Char}

theorem not_tab_of_isPrintable {c : Char} (h : isPrintable c) : c ≠ '\t' := by
  rintro rfl
  cases h

theorem follows_of_endsPlain (h : endsPlain s = false) : follows isBlank (· = '#') s = false := by
  induction s with
  | nil => rfl
  | cons a rest ih =>
      cases rest with
      | nil => rfl
      | cons b rest =>
          rw [endsPlain, Bool.or_eq_false_iff, Bool.or_eq_false_iff,
            Bool.and_comm (decide (b = '#'))] at h
          rw [follows, Bool.or_eq_false_iff]
          exact ⟨h.1.2, ih h.2⟩

theorem head?_append_all {p : Char → Bool} (h : s.head?.all p = false) :
    (s ++ after).head?.all p = false := by
  cases s with
  | nil => cases h
  | cons c rest => exact h

theorem colonsInside_of_endsPlain {c : Char} (h : endsPlain (c :: s) = false) :
    colonsInside s after := by
  induction s generalizing c with
  | nil => rfl
  | cons b rest ih =>
      rw [endsPlain, Bool.or_eq_false_iff, Bool.or_eq_false_iff] at h
      obtain ⟨⟨hcolon, -⟩, hrest⟩ := h
      rw [colonsInside, Bool.and_eq_true, Bool.not_eq_true']
      refine ⟨?_, ih hrest⟩
      rw [Bool.and_eq_false_iff] at hcolon ⊢
      exact hcolon.imp_right head?_append_all

end Facts

namespace PlainText

variable {s after : List Char} (h : PlainText s)

include h

theorem facts : s.any isBreak = false ∧ s.head? ≠ .some ' ' ∧ s.getLast? ≠ .some ' ' ∧
    startsStructure s = false ∧ endsPlain s = false := by
  have hfits := h.fits
  simp only [fitsPlain, Bool.and_eq_true, Bool.not_eq_true', bne_iff_ne] at hfits
  exact ⟨hfits.1.1.1.1, hfits.1.1.1.2, hfits.1.1.2, hfits.1.2, hfits.2⟩

theorem words : Words s where
  some := h.some
  line := by
    intro c hc
    have hbreak := List.any_eq_false.mp h.facts.1 c hc
    exact ⟨Bool.eq_false_iff.mpr hbreak, not_tab_of_isPrintable (h.printable c hc)⟩
  front := by
    intro c hc
    have hmem := List.mem_of_mem_head? hc
    have hspace : c ≠ ' ' := by
      rintro rfl
      exact h.facts.2.1 hc
    have htab := not_tab_of_isPrintable (h.printable c hmem)
    have hbreak := Bool.eq_false_iff.mpr (List.any_eq_false.mp h.facts.1 c hmem)
    rw [isBlank, hbreak, decide_eq_false hspace, decide_eq_false htab]
    rfl
  back := h.facts.2.2.1
  comments := follows_of_endsPlain h.facts.2.2.2.2

theorem exists_cons : ∃ c rest, s = c :: rest ∧ isBlank c = false ∧
    startIndicators.contains c = false ∧
      ((c = '?' || c = ':' || c = '-') && rest.head?.all isBlank) = false := by
  obtain ⟨c, rest, rfl⟩ := List.exists_cons_of_ne_nil h.some
  have hstart := h.facts.2.2.2.1
  simp only [startsStructure, Bool.or_eq_false_iff] at hstart
  exact ⟨c, rest, rfl, h.words.front c rfl, hstart.1.1.1, hstart.1.1.2⟩

theorem starts : Starts (s ++ after) := by
  obtain ⟨c, rest, rfl, hblank, hindicator, -⟩ := h.exists_cons
  refine Starts.cons hblank ?_
  rintro rfl
  cases hindicator

theorem not_sign {sign : Char} (hsign : sign = '?' ∨ sign = ':' ∨ sign = '-') :
    startsSign sign (s ++ after) = false := by
  obtain ⟨c, rest, rfl, -, -, hnext⟩ := h.exists_cons
  rw [List.cons_append, startsSign, Bool.and_eq_false_iff]
  by_cases hc : c = sign
  · rw [Bool.and_eq_false_iff] at hnext
    refine Or.inr (head?_append_all (hnext.resolve_left ?_))
    rcases hsign with rfl | rfl | rfl <;> rw [hc] <;> decide
  · exact Or.inl (decide_eq_false hc)

theorem stands (hdash : after.head? ≠ .some '-') (hdot : after.head? ≠ .some '.') :
    Stands (s ++ after) := by
  have hstart := h.facts.2.2.2.1
  obtain ⟨c, rest, rfl⟩ := List.exists_cons_of_ne_nil h.some
  simp only [startsStructure, Bool.or_eq_false_iff] at hstart
  have hmarker : ∀ mark : Char, startsMarker mark (c :: rest) = false → after.head? ≠ .some mark →
      startsMarker mark (c :: rest ++ after) = false := by
    intro mark hshort hafter
    rw [startsMarker, Bool.eq_false_iff, Ne, List.isPrefixOf_iff_prefix] at hshort ⊢
    intro hlong
    rcases List.prefix_or_prefix_of_prefix hlong (List.prefix_append (c :: rest) after) with
      hfront | ⟨tail, htail⟩
    · exact hshort hfront
    · cases tail with
      | nil =>
          rw [List.append_nil] at htail
          exact hshort (htail ▸ List.prefix_rfl)
      | cons d more =>
          have hd : d = mark := by
            have hmem : d ∈ [mark, mark, mark] := htail ▸ List.mem_append_right _ List.mem_cons_self
            simpa using hmem
          rw [← htail, List.prefix_append_right_inj] at hlong
          obtain ⟨others, rfl⟩ := hlong
          exact hafter (congrArg Option.some hd)
  exact ⟨List.cons_ne_nil _ _, hmarker '-' hstart.1.2 hdash, hmarker '.' hstart.2 hdot⟩

theorem startsPlain (line column : Nat) :
    startsPlain false (cells line column (s ++ after)) := by
  obtain ⟨c, rest, rfl, hblank, hindicator, hnext⟩ := h.exists_cons
  rw [List.cons_append, cells_cons_of_line (isBreak_of_not_isBlank hblank), Yaml.startsPlain,
    blankNext_cells]
  dsimp only
  by_cases hsign : c = '-' ∨ c = '?' ∨ c = ':'
  · have hhere : (c = '-' || (!false && (c = '?' || c = ':'))) = true := by simpa using hsign
    have hsame : (c = '?' || c = ':' || c = '-') = true := by
      rcases hsign with rfl | rfl | rfl <;> decide
    rw [hsame, Bool.true_and] at hnext
    rw [if_pos hhere, head?_append_all hnext]
    rfl
  · have hhere : (c = '-' || (!false && (c = '?' || c = ':'))) = false := by simpa using hsign
    rw [not_or, not_or] at hsign
    rw [hhere, if_neg (by decide), hblank, hindicator]
    simp [hsign.2]

theorem colons : colonsInside s after := by
  obtain ⟨c, rest, rfl, -, -, hnext⟩ := h.exists_cons
  rw [colonsInside, Bool.and_eq_true, Bool.not_eq_true']
  refine ⟨?_, colonsInside_of_endsPlain h.facts.2.2.2.2⟩
  by_cases hc : c = ':'
  · rw [hc] at hnext
    rw [head?_append_all hnext, Bool.and_false]
  · rw [decide_eq_false hc, Bool.false_and]

end PlainText

/-! ## What ends a plain text -/

section Ends

variable {s : List Char}

theorem isBlank_of_mem_indentation {n : Nat} : ∀ c ∈ '\n' :: spaces n, isBlank c := by
  intro c hc
  rcases List.mem_cons.mp hc with rfl | hspace
  · decide
  · rw [List.eq_of_mem_replicate hspace]
    decide

/-- The end of a line and the indentation of the next are one gap. -/
theorem spanBlanks_line (line column n : Nat) (h : Starts s) :
    spanBlanks (cells line column ('\n' :: (spaces n ++ s))) =
      ('\n' :: spaces n, cells (line + 1) n s) := by
  have hspan := spanBlanks_cells line column (a := '\n' :: spaces n) isBlank_of_mem_indentation
    fun c hc => (h c hc).1
  have hline : endLine line ('\n' :: spaces n) = line + 1 := by
    have hspaces := endLine_of_line line (isBreak_of_mem_spaces (n := n))
    rw [endLine, Nat.add_eq_left] at hspaces
    rw [endLine, List.countP_cons, hspaces]
    rfl
  have hcolumn : endColumn column ('\n' :: spaces n) = n := by
    have hspaces := endColumn_of_line 0 (isBreak_of_mem_spaces (n := n))
    rw [length_spaces, Nat.zero_add] at hspaces
    exact hspaces
  rwa [hline, hcolumn] at hspan

/-- A line that lies further to the left ends a plain text. -/
theorem closes_line {indent line n : Nat} (hn : n < indent) (h : Starts s) :
    Closes indent line ('\n' :: (spaces n ++ s)) where
  stops := rfl
  tabs := by
    intro column
    have hchars := takeWhile_cells isBlank line column ('\n' :: (spaces n ++ s))
    have hspan : ('\n' :: spaces n ++ s).takeWhile isBlank = '\n' :: spaces n :=
      takeWhile_append_of_stop isBlank_of_mem_indentation fun c hc => (h c hc).1
    rw [List.cons_append] at hspan
    rw [hspan] at hchars
    rw [List.any_eq_false]
    intro c hc
    have htab : c.char ≠ '\t' := by
      have hmem : c.char ∈ '\n' :: spaces n := hchars ▸ List.mem_map_of_mem hc
      rintro heq
      rw [heq] at hmem
      rcases List.mem_cons.mp hmem with hbreak | hspace
      · cases hbreak
      · cases List.eq_of_mem_replicate hspace
    simp [htab]
  dedent := by
    intro column
    rw [spanBlanks_line line column n h]
    cases s with
    | nil => rfl
    | cons c rest =>
        have hleft : ¬ indent ≤ n := Nat.not_le.mpr hn
        rw [cells, plainGoesOn]
        simp [hleft]

/-- A colon before a blank ends a plain text. -/
theorem closes_colon {indent line : Nat} (h : s.head?.all isBlank) :
    Closes indent line (':' :: s) where
  stops := by
    rw [stopsWord, h]
    rfl
  tabs := by
    intro column
    rw [cells_cons_of_line (by decide)]
    rfl
  dedent := by
    intro column
    rw [cells_cons_of_line (by decide)]
    rfl

theorem spanBlanks_colon (line column : Nat) :
    spanBlanks (cells line column (':' :: s)) = ([], cells line column (':' :: s)) := by
  rw [cells_cons_of_line (by decide)]
  rfl

end Ends

end FieldCalculus.Yaml
