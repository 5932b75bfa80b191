import FieldCalculus.Proofs.Yaml.Quoted

/-!
Literal blocks are read line by line. The lines of a printed block, joined with their ends, are
the text, up to the end of a line that the head of the block tells to drop or to keep.
-/

namespace FieldCalculus.Yaml

/-! ## Lines -/

namespace BlockLine

/-- A line with its end. -/
def chars : BlockLine → List Char
  | .blank ending => [ending]
  | .filled content ending => content ++ ending

/-- A line that a text can be cut into. -/
inductive Fits : BlockLine → Prop
  | blank {ending : Char} (hbreak : isBreak ending) : Fits (.blank ending)
  | filled {content : List Char} {ending : Char} (hsome : content ≠ [])
      (hline : ∀ c ∈ content, isBreak c = false) (hbreak : isBreak ending) :
      Fits (.filled content [ending])

end BlockLine

/-- Every text is cut into lines and what stands behind the last end of a line. -/
theorem exists_lines (s : List Char) : ∃ (lines : List BlockLine) (content : List Char),
    s = lines.flatMap BlockLine.chars ++ content ∧ (∀ l ∈ lines, l.Fits) ∧
      ∀ c ∈ content, isBreak c = false := by
  induction s with
  | nil => exact ⟨[], [], rfl, nofun, nofun⟩
  | cons c rest ih =>
      obtain ⟨lines, content, rfl, hlines, hcontent⟩ := ih
      cases hbreak : isBreak c with
      | true =>
          exact ⟨.blank c :: lines, content, rfl, List.forall_mem_cons.mpr ⟨.blank hbreak, hlines⟩,
            hcontent⟩
      | false =>
          cases lines with
          | nil => exact ⟨[], c :: content, rfl, nofun, List.forall_mem_cons.mpr ⟨hbreak, hcontent⟩⟩
          | cons first others =>
              obtain ⟨hfirst, hothers⟩ := List.forall_mem_cons.mp hlines
              cases hfirst with
              | @blank ending hending =>
                  refine ⟨.filled [c] [ending] :: others, content, rfl,
                    List.forall_mem_cons.mpr ⟨.filled (List.cons_ne_nil _ _) ?_ hending, hothers⟩,
                    hcontent⟩
                  exact List.forall_mem_cons.mpr ⟨hbreak, nofun⟩
              | @filled front ending hsome hline hending =>
                  refine ⟨.filled (c :: front) [ending] :: others, content, rfl,
                    List.forall_mem_cons.mpr ⟨.filled (List.cons_ne_nil _ _) ?_ hending, hothers⟩,
                    hcontent⟩
                  exact List.forall_mem_cons.mpr ⟨hbreak, hline⟩

section Printed

variable {indent : Nat} {s : List Char}

theorem indented_blank {c : Char} (h : isBreak c) (fresh : Bool) :
    indented indent fresh (c :: s) = c :: indented indent true s := by
  rw [indented, if_pos h]

theorem indented_filled {content : List Char} {c : Char} (hsome : content ≠ [])
    (hline : ∀ d ∈ content, isBreak d = false) (h : isBreak c) :
    indented indent true (content ++ c :: s) =
      spaces indent ++ (content ++ c :: indented indent true s) := by
  have hhead : ∀ d ∈ (content ++ c :: s).head?, isBreak d = false := by
    obtain ⟨d, rest, rfl⟩ := List.exists_cons_of_ne_nil hsome
    rintro e ⟨⟩
    exact hline d List.mem_cons_self
  rw [indented_fresh (by simp) hhead, indented_line hline, indented_blank h]

/-- The end of a line is never indented. -/
theorem indented_concat {c : Char} (h : isBreak c) (fresh : Bool) :
    indented indent fresh (s ++ [c]) = indented indent fresh s ++ [c] := by
  induction s generalizing fresh with
  | nil => rw [List.nil_append, indented_blank h]; rfl
  | cons d rest ih =>
      rw [List.cons_append, indented, indented]
      split
      · rw [ih, List.cons_append]
      · rw [ih, List.append_assoc, List.cons_append]

end Printed

/-! ## Reading lines -/

section Reading

variable {indent fuel line column n : Nat} {s : List Char}

theorem dropWhile_indentation (h : column + n ≤ indent) :
    (cells line column (spaces n ++ s)).dropWhile (fun c => c.char = ' ' && c.column < indent) =
      (cells line (column + n) s).dropWhile fun c => c.char = ' ' && c.column < indent := by
  induction n generalizing column with
  | zero => rfl
  | succ n ih =>
      have hcolumn : column < indent := by omega
      have hcons : spaces (n + 1) ++ s = ' ' :: (spaces n ++ s) := rfl
      have hplace : column + (n + 1) = column + 1 + n := by omega
      rw [hcons, cells_cons_of_line (by decide), List.dropWhile_cons_of_pos (by simp [hcolumn]),
        ih (by omega), hplace]

theorem blockLines?_blank {ending : Char} (h : isBreak ending) :
    blockLines? indent (fuel + 1) (cells line 0 (ending :: s)) =
      (blockLines? indent fuel (cells (line + 1) 0 s)).map fun (lines, rest) =>
        (.blank ending :: lines, rest) := by
  have hspace : ending ≠ ' ' := by
    rintro rfl
    cases h
  rw [cells_cons_of_break h, blockLines?, List.dropWhile_cons_of_neg (by simp [hspace])]
  dsimp only
  rw [if_pos h]

theorem blockLines?_filled {content : List Char} {ending : Char} (hsome : content ≠ [])
    (hline : ∀ c ∈ content, isBreak c = false) (h : isBreak ending) :
    blockLines? indent (fuel + 1) (cells line 0 (spaces indent ++ (content ++ ending :: s))) =
      (blockLines? indent fuel (cells (line + 1) 0 s)).map fun (lines, rest) =>
        (.filled content [ending] :: lines, rest) := by
  have hcontent := takeWhile_cells (fun c => !isBreak c) line indent (content ++ ending :: s)
  rw [takeWhile_append_of_stop (by simpa using hline) (by simpa using h)] at hcontent
  have hafter := dropWhile_cells (p := fun c => !isBreak c) (b := ending :: s) line indent
    (by simpa using hline) (by simpa using h)
  rw [endLine_of_line line hline, cells_cons_of_break h] at hafter
  rw [blockLines?, dropWhile_indentation (by omega), Nat.zero_add]
  obtain ⟨c, rest, rfl⟩ := List.exists_cons_of_ne_nil hsome
  rw [List.cons_append, cells_cons_of_line (hline c List.mem_cons_self)] at hcontent hafter ⊢
  rw [List.dropWhile_cons_of_neg (by simp)]
  dsimp only at hcontent hafter ⊢
  rw [hline c List.mem_cons_self, if_neg (by decide), if_neg (Nat.lt_irrefl _), hcontent, hafter]
  rfl

/-- A line that is not indented far enough ends a block. -/
theorem blockLines?_end (hn : n < indent) (hs : Starts s) (hfuel : n + s.length ≤ fuel) :
    blockLines? indent fuel (cells line 0 (spaces n ++ s)) = some ([], cells line n s) := by
  cases fuel with
  | zero =>
      obtain ⟨rfl, hnil⟩ : n = 0 ∧ s.length = 0 := by omega
      rfl
  | succ fuel =>
      rw [blockLines?, dropWhile_indentation (by omega), Nat.zero_add]
      cases s with
      | nil => rfl
      | cons c rest =>
          obtain ⟨hblank, -⟩ := hs c rfl
          have hbreak := isBreak_of_not_isBlank hblank
          simp only [isBlank, Bool.or_eq_false_iff, decide_eq_false_iff_not] at hblank
          rw [cells_cons_of_line hbreak, List.dropWhile_cons_of_neg (by simp [hblank.1.1])]
          dsimp only
          rw [hbreak, if_neg (by decide), if_pos hn, if_neg hblank.1.2]

/-- The lines of a text are read up to a line that is not indented far enough. -/
theorem blockLines?_lines (hn : n < indent) (hs : Starts s) {lines : List BlockLine}
    (hlines : ∀ l ∈ lines, l.Fits) (line fuel : Nat)
    (hfuel : (indented indent true (lines.flatMap BlockLine.chars)).length + (n + s.length) ≤ fuel) :
    ∃ later, line ≤ later ∧ blockLines? indent fuel (cells line 0 (indented indent true
      (lines.flatMap BlockLine.chars) ++ (spaces n ++ s))) = some (lines, cells later n s) := by
  induction lines generalizing line fuel with
  | nil =>
      refine ⟨line, Nat.le_refl _, blockLines?_end hn hs ?_⟩
      exact Nat.le_trans (Nat.le_add_left _ _) hfuel
  | cons first others ih =>
      obtain ⟨hfirst, hothers⟩ := List.forall_mem_cons.mp hlines
      rw [List.flatMap_cons] at hfuel ⊢
      cases hfirst with
      | @blank ending hbreak =>
          rw [BlockLine.chars, List.singleton_append, indented_blank hbreak,
            List.length_cons] at hfuel
          obtain ⟨fuel, rfl⟩ : ∃ more, fuel = more + 1 := ⟨fuel - 1, by omega⟩
          obtain ⟨later, hlater, hread⟩ := ih hothers (line + 1) fuel (by omega)
          refine ⟨later, by omega, ?_⟩
          rw [BlockLine.chars, List.singleton_append, indented_blank hbreak, List.cons_append,
            blockLines?_blank hbreak, hread]
          rfl
      | @filled content ending hsome hline hbreak =>
          have hprinted : indented indent true (BlockLine.chars (.filled content [ending]) ++
              others.flatMap BlockLine.chars) = spaces indent ++ (content ++ ending ::
                indented indent true (others.flatMap BlockLine.chars)) := by
            rw [BlockLine.chars, List.append_assoc]
            exact indented_filled hsome hline hbreak
          rw [hprinted] at hfuel ⊢
          simp only [List.length_append, List.length_cons] at hfuel
          obtain ⟨fuel, rfl⟩ : ∃ more, fuel = more + 1 := ⟨fuel - 1, by omega⟩
          obtain ⟨later, hlater, hread⟩ := ih hothers (line + 1) fuel (by omega)
          refine ⟨later, by omega, ?_⟩
          rw [List.append_assoc, List.append_assoc, List.cons_append,
            blockLines?_filled hsome hline hbreak, hread]
          rfl

end Reading

/-! ## Joining lines -/

namespace BlockState

/-- Everything that has been seen. -/
def whole (s : BlockState) : List Char := s.text ++ s.ending ++ s.blanks

/-- The text of a block that ends here. -/
def result (chomp : Chomp) (s : BlockState) : List Char :=
  s.text ++ match chomp with
    | .strip => []
    | .clip => s.ending
    | .keep => s.ending ++ s.blanks

def start : BlockState := ⟨[], [], [], false⟩

/-- Literal blocks lose nothing. -/
theorem whole_add (s : BlockState) (l : BlockLine) : (s.add true l).whole = s.whole ++ l.chars := by
  cases l with
  | blank ending => simp [whole, add, BlockLine.chars]
  | filled content ending => simp [whole, add, BlockLine.chars]

theorem whole_foldl (s : BlockState) (lines : List BlockLine) :
    (lines.foldl (add true) s).whole = s.whole ++ lines.flatMap BlockLine.chars := by
  induction lines generalizing s with
  | nil => rw [List.flatMap_nil, List.append_nil]; rfl
  | cons l rest ih => rw [List.foldl_cons, ih, whole_add, List.flatMap_cons, List.append_assoc]

theorem result_keep (lines : List BlockLine) :
    (lines.foldl (add true) start).result .keep = lines.flatMap BlockLine.chars := by
  have hwhole := whole_foldl start lines
  rwa [whole, List.append_assoc] at hwhole

/-- A block that ends with a filled line. -/
theorem foldl_filled (lines : List BlockLine) (content ending : List Char) :
    ∃ startedBlank, (lines ++ [BlockLine.filled content ending]).foldl (add true) start =
      ⟨lines.flatMap BlockLine.chars ++ content, ending, [], startedBlank⟩ := by
  have hwhole := whole_foldl start lines
  rw [whole, List.append_assoc] at hwhole
  rw [List.foldl_append, List.foldl_cons, List.foldl_nil, add]
  refine ⟨content.head?.any fun c => c = ' ' || c = '\t', ?_⟩
  rw [Bool.not_true, Bool.false_and, Bool.false_and, Bool.false_and, if_neg (by decide), hwhole]
  rfl

end BlockState

/-! ## Heads -/

/-- What a block does with the ends of lines at the end of a text. -/
def chompOf (s : List Char) : Chomp :=
  if !s.getLast?.any isBreak then .strip
  else if s.length = 1 || s.dropLast.getLast?.any isBreak then .keep
  else .clip

def Chomp.mark : Chomp → List Char
  | .strip => ['-']
  | .clip => []
  | .keep => ['+']

/-- Whether the first line of a text cannot show its indentation. -/
def hidesIndent (s : List Char) : Bool := s.head?.any fun c => c = ' ' || isBreak c

/-- What ends the last line of a block. -/
def lastBreak (s : List Char) : List Char := if s.getLast?.any isBreak then [] else ['\n']

theorem literalHead_eq (s : List Char) : literalHead s =
    '|' :: ((if hidesIndent s then ['2'] else []) ++ (chompOf s).mark ++ ['\n']) := by
  have hmark : (chompOf s).mark = if !s.getLast?.any isBreak then ['-']
      else if s.length = 1 || s.dropLast.getLast?.any isBreak then ['+'] else [] := by
    rw [chompOf]
    split
    · rfl
    · split <;> rfl
  rw [hmark]
  rfl

theorem blockMarks?_marks (hint : Bool) (chomp : Chomp) (line column : Nat) (s : List Char) :
    ∃ later, blockMarks? true (cells line column
      ((if hint then ['2'] else []) ++ chomp.mark ++ ['\n'] ++ s)) =
        some (⟨true, chomp, if hint then some 2 else none⟩, cells line later ('\n' :: s)) := by
  cases hint <;> cases chomp
  all_goals exact ⟨_, rfl⟩

theorem shownIndent?_spaces (n line column : Nat) (s : List Char) :
    shownIndent? column (cells line column (spaces n ++ s)) =
      shownIndent? (column + n) (cells line (column + n) s) := by
  induction n generalizing column with
  | zero => rfl
  | succ n ih =>
      have hcons : spaces (n + 1) ++ s = ' ' :: (spaces n ++ s) := rfl
      have hplace : column + (n + 1) = column + 1 + n := by omega
      rw [hcons, cells_cons_of_line (by decide), shownIndent?, if_pos rfl,
        Nat.max_eq_right (Nat.le_succ column), ih, hplace]

/-! ## Blocks -/

theorem getLast?_lines {lines : List BlockLine} (hlines : ∀ l ∈ lines, l.Fits) (hsome : lines ≠ []) :
    (lines.flatMap BlockLine.chars).getLast?.any isBreak := by
  obtain ⟨front, last, rfl⟩ : ∃ front last, lines = front ++ [last] :=
    ⟨_, _, (List.dropLast_concat_getLast hsome).symm⟩
  rw [List.flatMap_append, List.flatMap_singleton]
  cases hlines last (List.mem_append_right _ List.mem_cons_self) with
  | blank hbreak => simpa [BlockLine.chars] using hbreak
  | filled hsome hline hbreak => simpa [BlockLine.chars] using hbreak

theorem chompOf_concat (front : List Char) (last : Char) : chompOf (front ++ [last]) =
    if isBreak last then (if front.isEmpty || front.getLast?.any isBreak then .keep else .clip)
    else .strip := by
  have hlength : decide ((front ++ [last]).length = 1) = front.isEmpty := by
    cases front <;> simp
  rw [chompOf, hlength, List.getLast?_concat, List.dropLast_concat, Option.any_some]
  cases isBreak last <;> rfl

theorem lastBreak_concat (front : List Char) (last : Char) :
    lastBreak (front ++ [last]) = if isBreak last then [] else ['\n'] := by
  rw [lastBreak, List.getLast?_concat, Option.any_some]

/-- The lines of a text, and what is made of them. -/
theorem exists_blockLines {s : List Char} (hsome : s ≠ []) : ∃ lines : List BlockLine,
    (∀ l ∈ lines, l.Fits) ∧ lines.flatMap BlockLine.chars = s ++ lastBreak s ∧
      (lines.foldl (BlockState.add true) BlockState.start).result (chompOf s) = s := by
  obtain ⟨front, last, rfl⟩ : ∃ front last, s = front ++ [last] :=
    ⟨_, _, (List.dropLast_concat_getLast hsome).symm⟩
  obtain ⟨lines, content, hcut, hlines, hcontent⟩ := exists_lines front
  have hextend : ∀ {l : BlockLine}, l.Fits → ∀ l' ∈ lines ++ [l], l'.Fits := by
    intro l hl l' hl'
    rcases List.mem_append.mp hl' with hfront | hback
    · exact hlines l' hfront
    · rwa [List.mem_singleton.mp hback]
  have hall : ∀ l : BlockLine, (lines ++ [l]).flatMap BlockLine.chars =
      lines.flatMap BlockLine.chars ++ l.chars := fun l => by
    rw [List.flatMap_append, List.flatMap_singleton]
  rw [chompOf_concat, lastBreak_concat]
  cases hlast : isBreak last with
  | false =>
      -- the break that the printer adds is stripped
      have hfits : (BlockLine.filled (content ++ [last]) ['\n']).Fits := by
        refine .filled (by simp) ?_ (by decide)
        intro c hc
        rcases List.mem_append.mp hc with hfront | hback
        · exact hcontent c hfront
        · rwa [List.mem_singleton.mp hback]
      obtain ⟨startedBlank, hstate⟩ := BlockState.foldl_filled lines (content ++ [last]) ['\n']
      refine ⟨_, hextend hfits, ?_, ?_⟩
      · rw [hall, hcut, BlockLine.chars]
        simp
      · rw [hstate, hcut]
        simp [BlockState.result]
  | true =>
      -- behind a filled line one break is clipped to, and more of them are kept
      cases content with
      | nil =>
          rw [List.append_nil] at hcut
          have hchomp : (front.isEmpty || front.getLast?.any isBreak) = true := by
            cases lines with
            | nil => rw [hcut]; rfl
            | cons l rest => rw [hcut, getLast?_lines hlines (List.cons_ne_nil _ _), Bool.or_true]
          refine ⟨_, hextend (.blank hlast), ?_, ?_⟩
          · rw [hall, hcut, BlockLine.chars]
            simp
          · rw [hchomp, if_pos rfl, if_pos rfl, BlockState.result_keep, hall, hcut, BlockLine.chars]
      | cons c rest =>
          have hchomp : (front.isEmpty || front.getLast?.any isBreak) = false := by
            have hbreak := hcontent _ (List.getLast_mem (List.cons_ne_nil c rest))
            rw [hcut, List.getLast?_append, List.getLast?_eq_some_getLast (List.cons_ne_nil c rest),
              Option.some_or, Option.any_some, hbreak]
            simp
          obtain ⟨startedBlank, hstate⟩ := BlockState.foldl_filled lines (c :: rest) [last]
          refine ⟨_, hextend (.filled (List.cons_ne_nil c rest) hcontent hlast), ?_, ?_⟩
          · rw [hall, hcut, BlockLine.chars]
            simp
          · rw [hstate, hchomp, hcut]
            rfl

/-- The indentation of a block is the one that it is printed with. -/
theorem shownIndent?_body {s : List Char} (column line : Nat) (hsome : s ≠ [])
    (hprintable : ∀ c ∈ s, isPrintable c) (hshown : hidesIndent s = false) (after : List Char) :
    shownIndent? 0 (cells line 0 (indented (column + 2) true s ++ after)) = some (column + 2) := by
  obtain ⟨c, rest, rfl⟩ := List.exists_cons_of_ne_nil hsome
  have hfirst : c ≠ ' ' ∧ isBreak c = false := by simpa [hidesIndent] using hshown
  have htab := not_tab_of_isPrintable (hprintable c List.mem_cons_self)
  have hhead : ∀ d ∈ (c :: rest).head?, isBreak d = false := by
    rintro d ⟨⟩
    exact hfirst.2
  rw [indented_fresh (List.cons_ne_nil _ _) hhead, List.append_assoc, shownIndent?_spaces,
    Nat.zero_add, indented, hfirst.2, if_neg (by decide), if_neg (by decide), List.nil_append,
    List.cons_append, cells_cons_of_line hfirst.2, shownIndent?]
  dsimp only
  rw [if_neg hfirst.1, hfirst.2, if_neg (by decide), if_neg htab]

/-- How a block is read, part by part. -/
theorem block?_of_parts {parent : Option Nat} {cs cs' body rest : List Cell} {head : BlockHead}
    {indent : Nat} {lines : List BlockLine} (hmarks : blockMarks? true cs = some (head, cs'))
    (hhead : afterHead? cs' = some body)
    (hindent : (match head.further with
      | some n => some (parent.getD 0 + n)
      | none => (shownIndent? 0 body).map (max (parent.elim 1 (· + 1)))) = some indent)
    (hlines : blockLines? indent body.length body = some (lines, rest)) :
    block? true parent cs =
      some ((lines.foldl (BlockState.add true) BlockState.start).result head.chomp, rest) := by
  obtain ⟨literal, chomp, further⟩ := head
  rw [block?, hmarks]
  change (afterHead? cs').bind _ = _
  rw [hhead]
  cases further with
  | none =>
      dsimp only at hindent
      change ((shownIndent? 0 body).map (max (parent.elim 1 (· + 1)))).bind _ = _
      rw [hindent]
      change (blockLines? indent body.length body).bind _ = _
      rw [hlines]
      rfl
  | some n =>
      obtain rfl : parent.getD 0 + n = indent := Option.some.inj hindent
      change (blockLines? (parent.getD 0 + n) body.length body).bind _ = _
      rw [hlines]
      rfl

/-- A printed block is read as its text. -/
theorem block?_literal {s after : List Char} {n column : Nat} (hsome : s ≠ [])
    (hprintable : ∀ c ∈ s, isPrintable c) (hn : n ≤ column) (hafter : Starts after)
    (line place : Nat) : ∃ later, line < later ∧ block? true (some column) (cells line place
      ((literalHead s).tail ++ (indented (column + 2) true s ++ lastBreak s ++
        (spaces n ++ after)))) = some (s, cells later n after) := by
  obtain ⟨lines, hlines, hchars, hresult⟩ := exists_blockLines hsome
  have hbody : indented (column + 2) true s ++ lastBreak s =
      indented (column + 2) true (lines.flatMap BlockLine.chars) := by
    rw [hchars, lastBreak]
    split
    · rw [List.append_nil, List.append_nil]
    · rw [indented_concat (by decide)]
  have hlength : (cells (line + 1) 0 (indented (column + 2) true (lines.flatMap BlockLine.chars) ++
      (spaces n ++ after))).length = (indented (column + 2) true
        (lines.flatMap BlockLine.chars)).length + (n + after.length) := by
    rw [length_cells, List.length_append, List.length_append, length_spaces]
  obtain ⟨later, hlater, hread⟩ := blockLines?_lines (by omega : n < column + 2) hafter hlines
    (line + 1) _ (Nat.le_of_eq hlength.symm)
  obtain ⟨place', hmarks⟩ := blockMarks?_marks (hidesIndent s) (chompOf s) line place
    (indented (column + 2) true s ++ lastBreak s ++ (spaces n ++ after))
  refine ⟨later, by omega, ?_⟩
  have hhead : afterHead? (cells line place' ('\n' :: (indented (column + 2) true s ++
      lastBreak s ++ (spaces n ++ after)))) = some (cells (line + 1) 0
        (indented (column + 2) true s ++ lastBreak s ++ (spaces n ++ after))) := rfl
  have hindent : (match if hidesIndent s then some 2 else none with
      | some n => some ((some column).getD 0 + n)
      | none => (shownIndent? 0 (cells (line + 1) 0 (indented (column + 2) true s ++ lastBreak s ++
          (spaces n ++ after)))).map (max ((some column).elim 1 (· + 1)))) = some (column + 2) := by
    cases hshown : hidesIndent s with
    | true => rfl
    | false =>
        rw [if_neg (by decide), List.append_assoc,
          shownIndent?_body column (line + 1) hsome hprintable hshown]
        exact congrArg some (Nat.max_eq_right (Nat.le_succ _))
  rw [← hbody] at hread
  rw [literalHead_eq, List.tail_cons, block?_of_parts hmarks hhead hindent hread, hresult]

end FieldCalculus.Yaml
