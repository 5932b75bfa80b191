import FieldCalculus.Proofs.Yaml.Plain
import Mathlib.Algebra.Group.Nat.Defs

/-!
Quoted texts are read up to their closing quote. What stands between the quotes spells the text
in pieces: characters that stand for themselves, quotes written twice, escapes, and gaps that are
folded.
-/

namespace FieldCalculus.Yaml

open Text

/-! ## Spelling -/

/-- What stands behind a backslash and what it stands for. -/
structure Escapes (code : List Char) (c : Char) : Prop where
  some : code ≠ []
  line : ∀ d ∈ code, isBreak d = false
  read : ∀ line column after, escaped? (cells line column (code ++ after)) =
    Option.some (c, cells line (column + code.length) after)

/-- What stands between quotes, and the text that it spells. -/
inductive Quotes (quote : Char) : List Char → List Char → Prop
  | nil : Quotes quote [] []
  | char {c : Char} {body s : List Char} (hquote : c ≠ quote) (hslash : quote = '"' → c ≠ '\\')
      (hblank : isBlank c = false) (hrest : Quotes quote body s) : Quotes quote (c :: body) (c :: s)
  | twice {body s : List Char} (hquote : quote = '\'') (hrest : Quotes quote body s) :
      Quotes quote (quote :: quote :: body) (quote :: s)
  | gap {front body s : List Char} (hfront : ∀ c ∈ front, isBlank c)
      (hstop : ∀ c ∈ body.head?, isBlank c = false) (hrest : Quotes quote body s) :
      Quotes quote (front ++ ' ' :: body) (folded (front ++ [' ']) ++ s)
  | escape {code body s : List Char} {c : Char} (hquote : quote = '"') (hcode : Escapes code c)
      (hrest : Quotes quote body s) : Quotes quote ('\\' :: (code ++ body)) (c :: s)

section Reading

variable {quote : Char} {fuel line column : Nat} {s : List Char}

theorem not_marker (line : Nat) (hcolumn : 0 < column) (s : List Char) (mark : Char) :
    isMarker mark (cells line column s) = false := by
  refine isMarker_of_head fun c hc => ?_
  rw [head?_cells, Option.mem_def, Option.map_eq_some_iff] at hc
  obtain ⟨d, -, rfl⟩ := hc
  exact hcolumn

theorem quoted?_char {c : Char} (hcolumn : 0 < column) (hquote : c ≠ quote)
    (hslash : quote = '"' → c ≠ '\\') (hblank : isBlank c = false) :
    quoted? quote (fuel + 1) (cells line column (c :: s)) =
      (quoted? quote fuel (cells line (column + 1) s)).map fun (s, rest) => (c :: s, rest) := by
  have hmarker := not_marker line hcolumn (c :: s)
  rw [cells_cons_of_line (isBreak_of_not_isBlank hblank)] at hmarker ⊢
  have hescape : (c = '\\' && quote = '"') = false := by
    rw [Bool.and_eq_false_iff, decide_eq_false_iff_not, decide_eq_false_iff_not]
    exact Classical.or_iff_not_imp_right.mpr fun h => hslash (Decidable.not_not.mp h)
  rw [quoted?, hmarker, hmarker, Bool.or_self, if_neg (by decide), if_neg hquote, hescape,
    if_neg (by decide), hblank, if_neg (by decide)]

theorem quoted?_twice (hcolumn : 0 < column) :
    quoted? '\'' (fuel + 1) (cells line column ('\'' :: '\'' :: s)) =
      (quoted? '\'' fuel (cells line (column + 2) s)).map fun (s, rest) => ('\'' :: s, rest) := by
  have hmarker := not_marker line hcolumn ('\'' :: '\'' :: s)
  rw [cells_cons_of_line (by decide), cells_cons_of_line (by decide)] at hmarker ⊢
  rw [quoted?, hmarker, hmarker]
  rfl

theorem quoted?_close (hcolumn : 0 < column) (hbreak : isBreak quote = false)
    (hafter : quote = '\'' → s.head? ≠ some quote) :
    quoted? quote (fuel + 1) (cells line column (quote :: s)) =
      some ([], cells line (column + 1) s) := by
  have hmarker := not_marker line hcolumn (quote :: s)
  rw [cells_cons_of_line hbreak] at hmarker ⊢
  have htwice : (quote = '\'' && (cells line (column + 1) s).head?.any
      fun d => d.char = quote) = false := by
    rw [any_head?_cells (· = quote), Bool.and_eq_false_iff, decide_eq_false_iff_not]
    refine Classical.or_iff_not_imp_left.mpr fun h => ?_
    cases hs : s.head? with
    | none => rfl
    | some c =>
        refine decide_eq_false ?_
        rintro rfl
        exact hafter (Decidable.not_not.mp h) hs
  rw [quoted?, hmarker, hmarker, Bool.or_self, if_neg (by decide), if_pos rfl, htwice,
    if_neg (by decide)]

theorem quoted?_gap {gap : List Char} (hcolumn : 0 < column) (hsome : gap ≠ [])
    (hblank : ∀ c ∈ gap, isBlank c) (hquote : isBlank quote = false)
    (hs : ∀ c ∈ s.head?, isBlank c = false) :
    quoted? quote (fuel + 1) (cells line column (gap ++ s)) =
      (quoted? quote fuel (cells (endLine line gap) (endColumn column gap) s)).map
        fun (s, rest) => (folded gap ++ s, rest) := by
  have hspan := spanBlanks_cells line column hblank hs
  have hmarker := not_marker line hcolumn (gap ++ s)
  obtain ⟨c, rest, rfl⟩ := List.exists_cons_of_ne_nil hsome
  have hc := hblank c List.mem_cons_self
  have hne : c ≠ quote := by
    rintro rfl
    rw [hc] at hquote
    cases hquote
  have hslash : c ≠ '\\' := by
    rintro rfl
    cases hc
  rw [List.cons_append, cells] at hspan hmarker ⊢
  rw [quoted?, hmarker, hmarker, Bool.or_self, if_neg (by decide), if_neg hne,
    decide_eq_false hslash, Bool.false_and, if_neg (by decide), if_pos hc, hspan]

theorem quoted?_escape {code : List Char} {c : Char} (hcolumn : 0 < column)
    (hcode : Escapes code c) :
    quoted? '"' (fuel + 1) (cells line column ('\\' :: (code ++ s))) =
      (quoted? '"' fuel (cells line (column + 1 + code.length) s)).map
        fun (s, rest) => (c :: s, rest) := by
  have hmarker := not_marker line hcolumn ('\\' :: (code ++ s))
  have hbreak :
      ((cells line (column + 1) (code ++ s)).head?.any fun d => isBreak d.char) = false := by
    obtain ⟨d, rest, rfl⟩ := List.exists_cons_of_ne_nil hcode.some
    exact hcode.line d List.mem_cons_self
  rw [cells_cons_of_line (by decide)] at hmarker ⊢
  rw [quoted?, hmarker, hmarker, Bool.or_self, if_neg (by decide)]
  dsimp only
  rw [if_neg (by decide), decide_eq_true rfl, decide_eq_true rfl, Bool.and_self, if_pos rfl, hbreak,
    if_neg (by decide), hcode.read]
  rfl

end Reading

/-- A quoted text is read as what it spells. -/
theorem quoted?_cells {quote : Char} {body s after : List Char} (h : Quotes quote body s)
    (hquote : isBlank quote = false) (hafter : quote = '\'' → after.head? ≠ some quote)
    {line column fuel : Nat} (hcolumn : 0 < column) (hfuel : body.length < fuel) :
    quoted? quote fuel (cells line column (body ++ quote :: after)) =
      some (s, cells (endLine line (body ++ [quote]))
        (endColumn column (body ++ [quote])) after) := by
  have hclose := isBreak_of_not_isBlank hquote
  induction h generalizing line column fuel with
  | nil =>
      obtain ⟨fuel, rfl⟩ := Nat.exists_eq_add_of_lt hfuel
      rw [List.nil_append, List.nil_append, quoted?_close hcolumn hclose hafter,
        endLine_cons_of_line hclose, endColumn_cons_of_line hclose]
      rfl
  | char hne hslash hblank _ ih =>
      obtain ⟨fuel, rfl⟩ := Nat.exists_eq_add_of_lt hfuel
      have hbreak := isBreak_of_not_isBlank hblank
      rw [List.cons_append, quoted?_char hcolumn hne hslash hblank,
        ih (by omega) (by rw [List.length_cons]; omega), List.cons_append,
        endLine_cons_of_line hbreak, endColumn_cons_of_line hbreak]
      rfl
  | twice htwice _ ih =>
      obtain ⟨fuel, rfl⟩ := Nat.exists_eq_add_of_lt hfuel
      subst htwice
      rw [List.cons_append, List.cons_append, quoted?_twice hcolumn,
        ih (by omega) (by rw [List.length_cons, List.length_cons]; omega), List.cons_append,
        List.cons_append, endLine_cons_of_line hclose, endLine_cons_of_line hclose,
        endColumn_cons_of_line hclose, endColumn_cons_of_line hclose]
      rfl
  | @gap front body s hfront hstop _ ih =>
      obtain ⟨fuel, rfl⟩ := Nat.exists_eq_add_of_lt hfuel
      have hblank : ∀ c ∈ front ++ [' '], isBlank c := by
        intro c hc
        rcases List.mem_append.mp hc with hfirst | hlast
        · exact hfront c hfirst
        · rw [List.mem_singleton.mp hlast]
          decide
      have hnext : ∀ c ∈ (body ++ quote :: after).head?, isBlank c = false := by
        cases body with
        | nil =>
            rintro c ⟨⟩
            exact hquote
        | cons d rest => exact hstop
      -- the space keeps what follows away from the start of a line, where a marker could stand
      have hplace : 0 < endColumn column (front ++ [' ']) := by
        rw [endColumn_append]
        exact Nat.succ_pos _
      have hsplit : ∀ tail, front ++ ' ' :: tail = front ++ [' '] ++ tail := by simp
      rw [hsplit, List.append_assoc _ body, List.append_assoc _ body,
        quoted?_gap hcolumn (by simp) hblank hquote hnext,
        ih hplace (by simp; omega), endLine_append _ _ (body ++ [quote]),
        endColumn_append _ _ (body ++ [quote])]
      rfl
  | @escape code body s c hdouble hcode _ ih =>
      obtain ⟨fuel, rfl⟩ := Nat.exists_eq_add_of_lt hfuel
      subst hdouble
      rw [List.cons_append, List.cons_append, List.append_assoc, List.append_assoc,
        quoted?_escape hcolumn hcode, ih (by omega) (by simp; omega),
        endLine_cons_of_line (by decide), endColumn_cons_of_line (by decide),
        endLine_append line code, endColumn_append _ code, endLine_of_line line hcode.line,
        endColumn_of_line _ hcode.line]
      rfl

/-! ## Escapes -/

/-- The digits in base sixteen, in upper case. -/
def upperDigits : List Char := "0123456789ABCDEF".toList

theorem toUpper_digitChar {n : Nat} (h : n < 16) : (Nat.digitChar n).toUpper ∈ upperDigits ∧
    hexValue? (Nat.digitChar n).toUpper = some n := by
  revert n
  decide

theorem upperDigits_line : ∀ c ∈ upperDigits, isPrintable c ∧ isBreak c = false := by decide

/-- Reads one more digit in base sixteen. -/
def addDigit? (n : Nat) (c : Char) : Option Nat := (hexValue? c).map fun d => 16 * n + d

theorem foldlM_addDigit? (n : Nat) :
    ((Nat.toDigits 16 n).map Char.toUpper).foldlM addDigit? 0 = some n := by
  induction n using Nat.strongRecOn with
  | ind n ih =>
      rcases Nat.lt_or_ge n 16 with hsmall | hlarge
      · rw [Nat.toDigits_of_lt_base hsmall, List.map_singleton, List.foldlM_cons, addDigit?,
          (toUpper_digitChar hsmall).2]
        simp
      · have hdigit := (toUpper_digitChar (Nat.mod_lt n (by decide : 0 < 16))).2
        rw [Nat.toDigits_of_base_le (by decide) hlarge, List.map_append, List.foldlM_append,
          ih (n / 16) (by omega), List.map_singleton]
        change (addDigit? (n / 16) (Nat.digitChar (n % 16)).toUpper).bind some = _
        rw [addDigit?, hdigit, Option.map_some, Nat.div_add_mod]
        rfl

theorem mem_toDigits {n : Nat} {c : Char} (h : c ∈ Nat.toDigits 16 n) :
    ∃ d, d < 16 ∧ c = Nat.digitChar d := by
  induction n using Nat.strongRecOn with
  | ind n ih =>
      rcases Nat.lt_or_ge n 16 with hsmall | hlarge
      · rw [Nat.toDigits_of_lt_base hsmall] at h
        exact ⟨n, hsmall, List.mem_singleton.mp h⟩
      · rw [Nat.toDigits_of_base_le (by decide) hlarge] at h
        rcases List.mem_append.mp h with hfront | hlast
        · exact ih (n / 16) (by omega) hfront
        · exact ⟨n % 16, Nat.mod_lt n (by decide), List.mem_singleton.mp hlast⟩

section UpperHex

variable {width n : Nat}

theorem mem_upperHex {c : Char} (h : c ∈ upperHex width n) : c ∈ upperDigits := by
  rcases List.mem_append.mp h with hzero | hdigit
  · rw [List.eq_of_mem_replicate hzero]
    decide
  · obtain ⟨d, hd, rfl⟩ := List.mem_map.mp hdigit
    obtain ⟨k, hk, rfl⟩ := mem_toDigits hd
    exact (toUpper_digitChar hk).1

theorem length_upperHex (hwidth : 0 < width) (h : n < 16 ^ width) :
    (upperHex width n).length = width := by
  have hdigits := (Nat.length_toDigits_le_iff (by decide : 1 < 16) hwidth).mpr h
  rw [upperHex, List.length_append, List.length_replicate, List.length_map]
  omega

theorem foldlM_upperHex : (upperHex width n).foldlM addDigit? 0 = some n := by
  have hzeros : ∀ k, (List.replicate k '0').foldlM addDigit? 0 = some 0 := by
    intro k
    induction k with
    | zero => rfl
    | succ k ih => exact ih
  rw [upperHex, List.foldlM_append, hzeros]
  exact foldlM_addDigit? n

end UpperHex

/-- A character is read back from its number. -/
theorem coded?_upperHex {width : Nat} {c : Char} (hwidth : 0 < width) (h : c.toNat < 16 ^ width)
    (line column : Nat) (after : List Char) :
    escaped?.coded? width (cells line column (upperHex width c.toNat ++ after)) =
      some (c, cells line (column + width) after) := by
  have hlength := length_upperHex hwidth h
  have hline : ∀ d ∈ upperHex width c.toNat, isBreak d = false := fun d hd =>
    (upperDigits_line d (mem_upperHex hd)).2
  have hcells : (cells line column (upperHex width c.toNat)).length = width := by
    rw [length_cells, hlength]
  have hvalue : (cells line column (upperHex width c.toNat)).foldlM
      (fun n d => (hexValue? d.char).map fun d => 16 * n + d) 0 = some c.toNat := by
    have hmap : (upperHex width c.toNat).foldlM addDigit? 0 = some c.toNat := foldlM_upperHex
    rw [← map_char_cells line column (upperHex width c.toNat), List.foldlM_map] at hmap
    exact hmap
  rw [cells_append_of_line line column after hline, hlength, escaped?.coded?,
    List.take_left' hcells, List.drop_left' hcells, hcells, if_neg (Nat.lt_irrefl _), hvalue]
  have hvalid : c.toNat.isValidChar := c.valid
  simp [hvalid]

/-- A character that stands for itself between double quotes. -/
def isBare (c : Char) : Bool := isPrintable c && !isBreak c && c != '"' && c != '\\'

theorem escapes_coded {letter c : Char} {width : Nat} (hwidth : 0 < width)
    (h : c.toNat < 16 ^ width) (hletter : isBreak letter = false)
    (hread : ∀ (line column : Nat) (cs : List Cell),
      escaped? (⟨letter, line, column⟩ :: cs) = escaped?.coded? width cs) :
    Escapes (letter :: upperHex width c.toNat) c where
  some := List.cons_ne_nil _ _
  line := by
    intro d hd
    rcases List.mem_cons.mp hd with rfl | hdigit
    · exact hletter
    · exact (upperDigits_line d (mem_upperHex hdigit)).2
  read := by
    intro line column after
    rw [List.cons_append, cells_cons_of_line hletter, hread, coded?_upperHex hwidth h,
      List.length_cons, length_upperHex hwidth h, Nat.add_right_comm, Nat.add_assoc]

theorem escaped?_short {letter : Char} (h : ['x', 'u', 'U', ' ', '/', '\t'].contains letter = false)
    (line column : Nat) (cs : List Cell) : escaped? (⟨letter, line, column⟩ :: cs) =
      (escaped?.shortLetters.lookup letter).map fun c => (c, cs) := by
  simp only [List.contains_cons, List.contains_nil, Bool.or_eq_false_iff, beq_eq_false_iff_ne] at h
  simp [escaped?, h]

theorem shortEscapes_facts : ∀ entry ∈ shortEscapes, isPrintable entry.2 ∧ isBreak entry.2 = false ∧
    ['x', 'u', 'U', ' ', '/', '\t'].contains entry.2 = false ∧
      escaped?.shortLetters.lookup entry.2 = some entry.1 := by decide

theorem mem_of_lookup {α β : Type} [BEq α] [LawfulBEq α] {l : List (α × β)} {k : α} {v : β}
    (h : l.lookup k = some v) : (k, v) ∈ l := by
  obtain ⟨before, after, rfl, -⟩ := List.lookup_eq_some_iff.mp h
  exact List.mem_append_right _ List.mem_cons_self

theorem escapes_short {c letter : Char} (h : shortEscapes.lookup c = some letter) :
    Escapes [letter] c where
  some := List.cons_ne_nil _ _
  line := by
    intro d hd
    rw [List.mem_singleton.mp hd]
    exact (shortEscapes_facts _ (mem_of_lookup h)).2.1
  read := by
    intro line column after
    obtain ⟨-, hbreak, hshort, hlookup⟩ := shortEscapes_facts _ (mem_of_lookup h)
    rw [List.cons_append, cells_cons_of_line hbreak, escaped?_short hshort, hlookup]
    rfl

/-- A character between double quotes stands for itself or is escaped, in characters that can be
written as they are. -/
theorem escape_cases (c : Char) : (isBare c ∧ escape c = [c]) ∨
    ∃ code, escape c = '\\' :: code ∧ Escapes code c ∧ ∀ d ∈ code, isPrintable d := by
  have hdigits : ∀ width, ∀ d ∈ upperHex width c.toNat, isPrintable d := fun _ d hd =>
    (upperDigits_line d (mem_upperHex hd)).1
  unfold escape
  split
  · case isTrue hbare => exact Or.inl ⟨hbare, rfl⟩
  · right
    split
    · case h_1 letter hlookup =>
        refine ⟨[letter], rfl, escapes_short hlookup, ?_⟩
        intro d hd
        rw [List.mem_singleton.mp hd]
        exact (shortEscapes_facts _ (mem_of_lookup hlookup)).1
    · split
      · case isTrue hsmall =>
          exact ⟨_, rfl, escapes_coded (by decide) (by omega) (by decide) fun _ _ _ => rfl,
            List.forall_mem_cons.mpr ⟨by decide, hdigits 2⟩⟩
      · split
        · case isTrue hmiddle =>
            exact ⟨_, rfl, escapes_coded (by decide) (by omega) (by decide) fun _ _ _ => rfl,
              List.forall_mem_cons.mpr ⟨by decide, hdigits 4⟩⟩
        · have hlarge : c.toNat < 16 ^ 8 := by
            have hvalid : c.toNat.isValidChar := c.valid
            rcases hvalid with h | h <;> omega
          exact ⟨_, rfl, escapes_coded (by decide) hlarge (by decide) fun _ _ _ => rfl,
            List.forall_mem_cons.mpr ⟨by decide, hdigits 8⟩⟩

/-! ## Double quotes -/

theorem isBlank_of_isBare {c : Char} (hbare : isBare c) (hspace : c ≠ ' ') : isBlank c = false := by
  simp only [isBare, Bool.and_eq_true, Bool.not_eq_true'] at hbare
  rw [isBlank, hbare.1.1.2, decide_eq_false hspace,
    decide_eq_false (not_tab_of_isPrintable hbare.1.1.1)]
  rfl

theorem Quotes.spaces {quote : Char} {gap body s : List Char} (hsome : gap ≠ [])
    (hgap : ∀ c ∈ gap, c = ' ') (hstop : ∀ c ∈ body.head?, isBlank c = false)
    (hrest : Quotes quote body s) : Quotes quote (gap ++ body) (gap ++ s) := by
  obtain ⟨front, last, rfl⟩ : ∃ front last, gap = front ++ [last] :=
    ⟨_, _, (List.dropLast_concat_getLast hsome).symm⟩
  obtain rfl : last = ' ' := hgap last (List.mem_append_right _ List.mem_cons_self)
  have hfolded : folded (front ++ [' ']) = front ++ [' '] :=
    folded_of_line fun c hc => isBreak_of_eq_space (hgap c hc)
  have hfront : ∀ c ∈ front, isBlank c := by
    intro c hc
    rw [hgap c (List.mem_append_left _ hc)]
    decide
  have hquotes := Quotes.gap hfront hstop hrest
  rw [hfolded] at hquotes
  rwa [List.append_assoc front]

theorem flatMap_escape_spaces {gap : List Char} (hgap : ∀ c ∈ gap, c = ' ') :
    gap.flatMap escape = gap := by
  induction gap with
  | nil => rfl
  | cons c rest ih =>
      rw [List.flatMap_cons, ih fun d hd => hgap d (List.mem_cons_of_mem _ hd),
        hgap c List.mem_cons_self]
      rfl

theorem escape_head (s : List Char) (hs : ∀ c ∈ s.head?, c ≠ ' ') :
    ∀ c ∈ (s.flatMap escape).head?, isBlank c = false := by
  cases s with
  | nil => nofun
  | cons c rest =>
      rw [List.flatMap_cons]
      rcases escape_cases c with ⟨hbare, hescape⟩ | ⟨code, hescape, -, -⟩ <;> rw [hescape]
      · rintro d ⟨⟩
        exact isBlank_of_isBare hbare (hs c rfl)
      · rintro d ⟨⟩
        decide

/-- Every text is spelt by its escapes. -/
theorem quotes_escape (s : List Char) : Quotes '"' (s.flatMap escape) s := by
  induction s using run_induction (· = ' ') with
  | nil => exact .nil
  | char c rest hspace ih =>
      rw [List.flatMap_cons]
      rcases escape_cases c with ⟨hbare, hescape⟩ | ⟨code, hescape, hcode, -⟩ <;> rw [hescape]
      · have hfacts := hbare
        simp only [isBare, Bool.and_eq_true, bne_iff_ne] at hfacts
        exact .char hfacts.1.2 (fun _ => hfacts.2)
          (isBlank_of_isBare hbare (of_decide_eq_false hspace)) ih
      · exact .escape rfl hcode ih
  | run gap rest hsome hgap hrest ih =>
      simp only [decide_eq_true_eq, decide_eq_false_iff_not] at hgap hrest
      rw [List.flatMap_append, flatMap_escape_spaces hgap]
      exact .spaces hsome hgap (escape_head rest hrest) ih

/-! ## Indented texts -/

section Indented

variable {indent : Nat} {a b : List Char}

theorem indented_line (ha : ∀ c ∈ a, isBreak c = false) :
    indented indent false (a ++ b) = a ++ indented indent false b := by
  induction a with
  | nil => rfl
  | cons c rest ih =>
      rw [List.cons_append, indented, ha c List.mem_cons_self, if_neg (by decide), if_neg (by decide),
        List.nil_append, ih fun d hd => ha d (List.mem_cons_of_mem _ hd), List.cons_append]

theorem indented_breaks {fresh : Bool} (hsome : a ≠ []) (ha : ∀ c ∈ a, isBreak c) :
    indented indent fresh (a ++ b) = a ++ indented indent true b := by
  induction a generalizing fresh with
  | nil => exact absurd rfl hsome
  | cons c rest ih =>
      rw [List.cons_append, indented, if_pos (ha c List.mem_cons_self), List.cons_append]
      cases rest with
      | nil => rfl
      | cons d more => rw [ih (List.cons_ne_nil _ _) fun e he => ha e (List.mem_cons_of_mem _ he)]

theorem indented_fresh (hsome : a ≠ []) (ha : ∀ c ∈ a.head?, isBreak c = false) :
    indented indent true a = spaces indent ++ indented indent false a := by
  obtain ⟨c, rest, rfl⟩ := List.exists_cons_of_ne_nil hsome
  have hline := ha c rfl
  rw [indented, indented, hline, if_neg (by decide), if_pos rfl, if_neg (by decide),
    if_neg (by decide)]
  rfl

end Indented

/-! ## Single quotes -/

/-- How a character is written between single quotes. -/
def doubled (c : Char) : List Char := if c = '\'' then ['\'', '\''] else [c]

/-- What stands between single quotes. -/
def singleBody (indent : Nat) (s : List Char) : List Char :=
  indented indent false (s.flatMap doubled) ++ if s.getLast?.any isBreak then spaces indent else []

theorem single_eq (indent : Nat) (s : List Char) :
    single indent s = '\'' :: (singleBody indent s ++ ['\'']) := rfl

theorem line_of_mem_doubled {c : Char} (h : isBreak c = false) :
    ∀ d ∈ doubled c, isBreak d = false := by
  unfold doubled
  split
  · decide
  · intro d hd
    rwa [List.mem_singleton.mp hd]

section SingleBody

variable {indent : Nat} {c : Char} {gap rest : List Char}

theorem singleBody_char (h : isBreak c = false) :
    singleBody indent (c :: rest) = doubled c ++ singleBody indent rest := by
  have hlast : (c :: rest).getLast?.any isBreak = rest.getLast?.any isBreak := by
    cases rest with
    | nil => exact h
    | cons d more => rw [List.getLast?_cons_cons]
  rw [singleBody, singleBody, List.flatMap_cons, indented_line (line_of_mem_doubled h), hlast,
    List.append_assoc]

theorem singleBody_spaces (hgap : ∀ c ∈ gap, c = ' ') :
    singleBody indent (gap ++ rest) = gap ++ singleBody indent rest := by
  induction gap with
  | nil => rfl
  | cons c more ih =>
      rw [List.cons_append, singleBody_char (isBreak_of_eq_space (hgap c List.mem_cons_self)),
        ih fun d hd => hgap d (List.mem_cons_of_mem _ hd), hgap c List.mem_cons_self]
      rfl

theorem flatMap_doubled_breaks (hgap : ∀ c ∈ gap, isBreak c) : gap.flatMap doubled = gap := by
  induction gap with
  | nil => rfl
  | cons c more ih =>
      have hquote : c ≠ '\'' := by
        rintro rfl
        cases hgap _ List.mem_cons_self
      rw [List.flatMap_cons, ih fun d hd => hgap d (List.mem_cons_of_mem _ hd), doubled,
        if_neg hquote]
      rfl

theorem singleBody_breaks (hsome : gap ≠ []) (hgap : ∀ c ∈ gap, isBreak c)
    (hrest : ∀ c ∈ rest.head?, isBreak c = false) :
    singleBody indent (gap ++ rest) = gap ++ (spaces indent ++ singleBody indent rest) := by
  rw [singleBody, List.flatMap_append, flatMap_doubled_breaks hgap, indented_breaks hsome hgap]
  cases rest with
  | nil =>
      have hlast : (gap ++ []).getLast?.any isBreak := by
        rw [List.append_nil, List.getLast?_eq_some_getLast hsome]
        exact hgap _ (List.getLast_mem hsome)
      rw [hlast, if_pos rfl]
      simp [indented, singleBody]
  | cons c more =>
      have hfresh : indented indent true ((c :: more).flatMap doubled) =
          spaces indent ++ indented indent false ((c :: more).flatMap doubled) := by
        refine indented_fresh ?_ ?_
        · rw [List.flatMap_cons, doubled]
          split <;> exact List.cons_ne_nil _ _
        · rw [List.flatMap_cons]
          intro d hd
          rw [doubled] at hd
          split at hd
          · cases hd
            decide
          · cases hd
            exact hrest c rfl
      have hlast : (gap ++ c :: more).getLast? = (c :: more).getLast? := by
        rw [List.getLast?_append, List.getLast?_eq_some_getLast (List.cons_ne_nil c more)]
        rfl
      rw [hfresh, hlast, singleBody, List.append_assoc, List.append_assoc]

theorem singleBody_head (hrest : ∀ c ∈ rest.head?, isBlank c = false) :
    ∀ c ∈ (singleBody indent rest).head?, isBlank c = false := by
  cases rest with
  | nil => nofun
  | cons c more =>
      rw [singleBody_char (isBreak_of_not_isBlank (hrest c rfl)), doubled]
      split
      · rintro d ⟨⟩
        decide
      · rintro d ⟨⟩
        exact hrest c rfl

end SingleBody

theorem folded_breaks {gap : List Char} {n : Nat} (hsome : gap ≠ []) (hgap : ∀ c ∈ gap, isBreak c)
    (hfeed : '\n' ∉ gap) : folded (gap ++ spaces n) = gap := by
  have hfilter : (gap ++ spaces n).filter isBreak = gap := by
    rw [List.filter_append, List.filter_eq_self.mpr hgap, List.filter_eq_nil_iff.mpr, List.append_nil]
    intro c hc
    rw [isBreak_of_mem_spaces c hc]
    decide
  obtain ⟨c, rest, rfl⟩ := List.exists_cons_of_ne_nil hsome
  have hne : c ≠ '\n' := fun h => hfeed (h ▸ List.mem_cons_self)
  unfold folded
  rw [hfilter]
  split
  · case h_1 heq => cases heq
  · case h_2 heq =>
      cases heq
      exact absurd rfl hne
  · case h_3 heq =>
      cases heq
      exact absurd rfl hne
  · rfl

/-- A text that can stand between single quotes. -/
structure SingleText (s : List Char) : Prop where
  printable : ∀ c ∈ s, isPrintable c
  feeds : '\n' ∉ s
  before : follows (· = ' ') isBreak s = false
  behind : follows isBreak (· = ' ') s = false

namespace SingleText

variable {gap s : List Char}

theorem behind_front (h : SingleText (gap ++ s)) : SingleText s where
  printable := fun c hc => h.printable c (List.mem_append_right _ hc)
  feeds := fun hmem => h.feeds (List.mem_append_right _ hmem)
  before := follows_of_append h.before
  behind := follows_of_append h.behind

theorem behind_cons {c : Char} (h : SingleText (c :: s)) : SingleText s :=
  behind_front (show SingleText ([c] ++ s) from h)

theorem space_or_break (h : SingleText s) {c : Char} (hc : c ∈ s) (hblank : isBlank c) :
    c = ' ' ∨ isBreak c := by
  rw [isBlank, Bool.or_eq_true, Bool.or_eq_true, decide_eq_true_eq, decide_eq_true_eq] at hblank
  rcases hblank with (hspace | htab) | hbreak
  · exact Or.inl hspace
  · exact absurd htab (not_tab_of_isPrintable (h.printable c hc))
  · exact Or.inr hbreak

/-- No gap has both spaces and ends of lines. -/
theorem gap_cases (h : SingleText (gap ++ s)) (hgap : ∀ c ∈ gap, isBlank c) :
    (∀ c ∈ gap, c = ' ') ∨ ∀ c ∈ gap, isBreak c := by
  induction gap with
  | nil => exact Or.inl nofun
  | cons c rest ih =>
      have hfirst := h.space_or_break List.mem_cons_self (hgap c List.mem_cons_self)
      have hrest := ih h.behind_cons fun d hd => hgap d (List.mem_cons_of_mem _ hd)
      cases rest with
      | nil => simpa using hfirst
      | cons d more =>
          rcases hfirst with rfl | hbreak
          · refine Or.inl (List.forall_mem_cons.mpr ⟨rfl, hrest.resolve_right fun hbreaks => ?_⟩)
            have hnot := not_follows (a := []) h.before rfl
            rw [hbreaks d List.mem_cons_self] at hnot
            cases hnot
          · refine Or.inr (List.forall_mem_cons.mpr ⟨hbreak, hrest.resolve_left fun hspaces => ?_⟩)
            have hnot := not_follows (a := []) h.behind hbreak
            rw [hspaces d List.mem_cons_self] at hnot
            cases hnot

end SingleText

/-- Texts that can stand between single quotes are spelt by what is written there. -/
theorem quotes_singleBody {indent : Nat} (hindent : 0 < indent) {s : List Char} (h : SingleText s) :
    Quotes '\'' (singleBody indent s) s := by
  induction s using run_induction isBlank with
  | nil => exact .nil
  | char c rest hblank ih =>
      have hrest := ih h.behind_cons
      rw [singleBody_char (isBreak_of_not_isBlank hblank), doubled]
      split
      · case isTrue hquote =>
          subst hquote
          exact .twice rfl hrest
      · case isFalse hquote => exact .char hquote nofun hblank hrest
  | run gap rest hsome hgap hstop ih =>
      have hrest := ih h.behind_front
      have hhead : ∀ c ∈ (singleBody indent rest).head?, isBlank c = false := singleBody_head hstop
      rcases h.gap_cases hgap with hspaces | hbreaks
      · rw [singleBody_spaces hspaces]
        exact .spaces hsome hspaces hhead hrest
      · obtain ⟨n, rfl⟩ := Nat.exists_eq_succ_of_ne_zero (Nat.ne_of_gt hindent)
        have hfeed : '\n' ∉ gap := fun hmem => h.feeds (List.mem_append_left _ hmem)
        have hspaces : spaces (n + 1) = spaces n ++ [' '] := List.replicate_succ'
        have hfront : ∀ c ∈ gap ++ spaces n, isBlank c := by
          intro c hc
          rcases List.mem_append.mp hc with hbreak | hspace
          · exact isBlank_of_isBreak (hbreaks c hbreak)
          · rw [List.eq_of_mem_replicate hspace]
            decide
        have hquotes := Quotes.gap hfront hhead hrest
        have hfolded := folded_breaks (n := n + 1) hsome hbreaks hfeed
        rw [hspaces, ← List.append_assoc] at hfolded
        rw [hfolded] at hquotes
        rw [singleBody_breaks hsome hbreaks fun c hc => isBreak_of_not_isBlank (hstop c hc)]
        simpa [hspaces] using hquotes

end FieldCalculus.Yaml
