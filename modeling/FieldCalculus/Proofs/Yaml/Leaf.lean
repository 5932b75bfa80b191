import FieldCalculus.Proofs.Numerals
import FieldCalculus.Proofs.Yaml.Block

/-!
Leaves are read as they were printed, in whichever style, and what is left behind them is the
next line. A text stays a text between quotes and in a block, and is a word without.
-/

namespace FieldCalculus.Yaml

/-! ## What starts on a line -/

section Leads

variable {fuel line column : Nat} {parent : Option Nat} {anchors : List (String × Document)}
  {s : List Char} {cs rest : List Cell}

/-- A node without properties. -/
def bareLead (d : Document) (rest : List Cell) (anchors : List (String × Document)) : Lead :=
  ⟨.none, some d, ⟨rest, anchors⟩⟩

theorem read?_bare {c : Char} (hname : c ≠ '&') (htag : c ≠ '!') :
    Properties.read? false skipOnLine 3 .none (⟨c, line, column⟩ :: cs) =
      some (.none, ⟨c, line, column⟩ :: cs) := by
  rw [Properties.read?, if_neg hname, if_neg htag]

theorem lead?_block (h : block? true parent cs = some (s, rest)) :
    lead? fuel parent ⟨⟨'|', line, column⟩ :: cs, anchors⟩ =
      some (bareLead (.text (String.ofList s)) rest anchors) := by
  rw [lead?, read?_bare (by decide) (by decide)]
  simp [Properties.isNone, Properties.none, h, bareLead]

theorem lead?_quoted {quote : Char} (hquote : quote = '"' ∨ quote = '\'')
    (h : quoted? quote (cs.length + 1) cs = some (s, rest)) :
    lead? fuel parent ⟨⟨quote, line, column⟩ :: cs, anchors⟩ =
      some (bareLead (.text (String.ofList s)) rest anchors) := by
  rcases hquote with rfl | rfl <;> rw [lead?, read?_bare (by decide) (by decide)] <;>
    simp [Properties.isNone, Properties.none, h, bareLead]

theorem lead?_flow {bracket : Char} {d : Document} (hbracket : bracket = '[' ∨ bracket = '\x7b')
    (h : flowContent? fuel true ⟨⟨bracket, line, column⟩ :: cs, anchors⟩ =
      some (d, ⟨rest, anchors⟩)) :
    lead? fuel parent ⟨⟨bracket, line, column⟩ :: cs, anchors⟩ =
      some (bareLead d rest anchors) := by
  rcases hbracket with rfl | rfl <;> rw [lead?, read?_bare (by decide) (by decide)] <;>
    simp [Properties.isNone, Properties.none, h, bareLead]

theorem lead?_plain {c : Char} (hc : startIndicators.contains c = false)
    (hplain : startsPlain false (⟨c, line, column⟩ :: cs))
    (h : plain? false (parent.elim 0 (· + 1)) (cs.length + 1) (⟨c, line, column⟩ :: cs) =
      some (s, rest)) : lead? fuel parent ⟨⟨c, line, column⟩ :: cs, anchors⟩ =
        some (bareLead (.scalar (.word (String.ofList s))) rest anchors) := by
  simp only [startIndicators, List.contains_cons, List.contains_nil, Bool.or_eq_false_iff,
    beq_eq_false_iff_ne, ne_eq] at hc
  rw [lead?, read?_bare (by simp [hc]) (by simp [hc])]
  simp [Properties.isNone, Properties.none, h, bareLead, hc, hplain]

/-- A plain text is read as a word. -/
theorem lead?_plainText {after : List Char} (hs : PlainText s)
    (hcloses : Closes (parent.elim 0 (· + 1)) line after) :
    lead? fuel parent ⟨cells line column (s ++ after), anchors⟩ =
      some (bareLead (.scalar (.word (String.ofList s)))
        (spanBlanks (cells line (column + s.length) after)).2 anchors) := by
  have hread : plain? false (parent.elim 0 (· + 1)) (s ++ after).length
      (cells line column (s ++ after)) = _ :=
    plain?_cells hcloses hs.words hs.colons (by rw [List.length_append]; omega)
  have hplain : startsPlain false (cells line column (s ++ after)) := hs.startsPlain line column
  obtain ⟨c, others, rfl, hblank, hindicator, -⟩ := hs.exists_cons
  rw [List.cons_append, cells_cons_of_line (isBreak_of_not_isBlank hblank)] at hread hplain ⊢
  refine lead?_plain hindicator hplain ?_
  rw [length_cells, ← List.length_cons (a := c)]
  exact hread

/-- A quoted text is read as what it spells. -/
theorem lead?_quotes {quote : Char} {body after : List Char} (hquote : quote = '"' ∨ quote = '\'')
    (hbody : Quotes quote body s) (hafter : quote = '\'' → after.head? ≠ some quote) :
    lead? fuel parent ⟨cells line column (quote :: (body ++ quote :: after)), anchors⟩ =
      some (bareLead (.text (String.ofList s)) (cells (endLine line (body ++ [quote]))
        (endColumn (column + 1) (body ++ [quote])) after) anchors) := by
  have hblank : isBlank quote = false := by rcases hquote with rfl | rfl <;> decide
  rw [cells_cons_of_line (isBreak_of_not_isBlank hblank)]
  refine lead?_quoted hquote (quoted?_cells hbody hblank hafter (Nat.succ_pos _) ?_)
  rw [length_cells, List.length_append, List.length_cons]
  omega

end Leads

/-! ## Styles -/

section Styles

variable {text : String}

theorem printable_of_needsEscapes {s : List Char} (h : needsEscapes s = false) :
    (∀ c ∈ s, isPrintable c) ∧ follows (· = ' ') isBreak s = false := by
  rw [needsEscapes, Bool.or_eq_false_iff, Bool.not_eq_false', List.all_eq_true] at h
  exact h

theorem plainText_of_style (h : styleOf text = .plain) : PlainText text.toList := by
  unfold styleOf at h
  dsimp only at h
  split at h
  · split at h <;> cases h
  · split at h
    · cases h
    · case isFalse hescapes =>
        split at h
        · case isTrue hplain =>
            rw [Bool.and_eq_true] at hplain
            rw [Bool.not_eq_true, Bool.or_eq_false_iff] at hescapes
            refine ⟨?_, (printable_of_needsEscapes hescapes.1).1, hplain.2⟩
            intro hnil
            rw [String.toList_eq_nil_iff] at hnil
            subst hnil
            exact absurd hplain.1 (by decide)
        · cases h

theorem singleText_of_style (h : styleOf text = .single) : SingleText text.toList := by
  unfold styleOf at h
  dsimp only at h
  split at h
  · split at h <;> cases h
  · case isFalse hfeed =>
      split at h
      · cases h
      · case isFalse hescapes =>
          rw [Bool.not_eq_true, Bool.or_eq_false_iff] at hescapes
          obtain ⟨hprintable, hbefore⟩ := printable_of_needsEscapes hescapes.1
          exact ⟨hprintable, by simpa using hfeed, hbefore, hescapes.2⟩

theorem printable_of_literal (h : styleOf text = .literal) :
    '\n' ∈ text.toList ∧ ∀ c ∈ text.toList, isPrintable c := by
  unfold styleOf at h
  dsimp only at h
  split at h
  · case isTrue hfeed =>
      split at h
      · cases h
      · case isFalse hescapes =>
          rw [Bool.not_eq_true, Bool.or_eq_false_iff] at hescapes
          exact ⟨List.contains_iff_mem.mp hfeed, (printable_of_needsEscapes hescapes.1).1⟩
  · split at h
    · cases h
    · split at h <;> cases h

end Styles

/-! ## Numbers -/

section Numbers

open Text

theorem endsPlain_of_forall {s : List Char} (h : ∀ c ∈ s, c ≠ ':' ∧ c ≠ '#') :
    endsPlain s = false := by
  induction s with
  | nil => rfl
  | cons a rest ih =>
      cases rest with
      | nil => rfl
      | cons b more =>
          obtain ⟨hcolon, hcomment⟩ := h b (List.mem_cons_of_mem _ List.mem_cons_self)
          rw [endsPlain, decide_eq_false hcolon, decide_eq_false hcomment,
            ih fun c hc => h c (List.mem_cons_of_mem _ hc)]
          rfl

theorem isNumeric_cases {c : Char} (h : Number.isNumeric c) :
    isDigit c ∨ c = '.' ∨ c = 'e' ∨ c = '-' := by
  simpa [Number.isNumeric, or_assoc] using h

theorem isPrintable_of_isNumeric {c : Char} (h : Number.isNumeric c) : isPrintable c := by
  rcases isNumeric_cases h with hdigit | rfl | rfl | rfl
  · have hbounds : '0'.toNat ≤ c.toNat ∧ c.toNat ≤ '9'.toNat := Char.isDigit_iff_toNat.mp hdigit
    have hzero : '0'.toNat = 48 := rfl
    have hnine : '9'.toNat = 57 := rfl
    have hlow : 0x20 ≤ c.toNat := by omega
    have hhigh : c.toNat ≤ 0x7e := by omega
    simp [isPrintable, hlow, hhigh]
  all_goals decide

/-- A character that no numeral has. -/
theorem ne_of_isNumeric {c d : Char} (hc : Number.isNumeric c) (hd : Number.isNumeric d = false) :
    c ≠ d := by
  rintro rfl
  rw [hc] at hd
  cases hd

theorem isBreak_of_isNumeric {c : Char} (h : Number.isNumeric c) : isBreak c = false := by
  have hne : ∀ d, Number.isNumeric d = false → decide (c = d) = false := fun d hd =>
    decide_eq_false (ne_of_isNumeric h hd)
  rw [isBreak, hne '\n' (by decide), hne '\r' (by decide), hne '\x85' (by decide),
    hne '\u2028' (by decide), hne '\u2029' (by decide)]
  rfl

/-- A numeral, perhaps with a sign, can stand plain. -/
theorem plainText_of_numeric {s : List Char} (hsome : s ≠ []) (hchars : ∀ c ∈ s, Number.isNumeric c)
    (hstart : startsStructure s = false) : PlainText s where
  some := hsome
  printable := fun c hc => isPrintable_of_isNumeric (hchars c hc)
  fits := by
    have hbreaks : s.any isBreak = false := by
      rw [List.any_eq_false]
      intro c hc
      rw [isBreak_of_isNumeric (hchars c hc)]
      decide
    have hspace : ∀ c ∈ s, c ≠ ' ' := fun c hc => ne_of_isNumeric (hchars c hc) (by decide)
    have hhead : s.head? ≠ some ' ' := fun h => hspace _ (List.mem_of_head? h) rfl
    have hlast : s.getLast? ≠ some ' ' := fun h => hspace _ (List.mem_of_getLast? h) rfl
    have hends : endsPlain s = false := endsPlain_of_forall fun c hc =>
      ⟨ne_of_isNumeric (hchars c hc) (by decide), ne_of_isNumeric (hchars c hc) (by decide)⟩
    rw [fitsPlain, hbreaks, hstart, hends, bne_iff_ne.mpr hhead, bne_iff_ne.mpr hlast]
    rfl

theorem startsStructure_of_digit {c : Char} (hc : isDigit c) (rest : List Char) :
    startsStructure (c :: rest) = false ∧ startsStructure ('-' :: c :: rest) = false := by
  have hne : ∀ d, isDigit d = false → c ≠ d := fun d hd => Number.ne_of_isDigit hc hd
  have hindicator : startIndicators.contains c = false := by
    have hnone : ∀ d ∈ startIndicators, isDigit d = false := by decide
    rw [Bool.eq_false_iff, Ne, List.contains_iff_mem]
    intro hmem
    exact hne c (hnone c hmem) rfl
  have hblank : isBlank c = false := by
    rw [isBlank, isBreak_of_isNumeric (Number.isNumeric_of_isDigit hc),
      decide_eq_false (hne ' ' (by decide)), decide_eq_false (hne '\t' (by decide))]
    rfl
  have hdash : ('-' == c) = false := beq_eq_false_iff_ne.mpr (hne '-' (by decide)).symm
  have hdot : ('.' == c) = false := beq_eq_false_iff_ne.mpr (hne '.' (by decide)).symm
  constructor
  · rw [startsStructure, hindicator, List.isPrefixOf, List.isPrefixOf, hdash, hdot,
      decide_eq_false (hne '?' (by decide)), decide_eq_false (hne ':' (by decide)),
      decide_eq_false (hne '-' (by decide))]
    rfl
  · have hmark : startIndicators.contains '-' = false := by decide
    rw [startsStructure, hmark, List.isPrefixOf, List.isPrefixOf, List.isPrefixOf, hdash,
      List.head?_cons, Option.all_some, hblank]
    rfl

/-- Every number can stand plain. -/
theorem plainText_number (n : Number) : PlainText (n.text .yaml).toList := by
  cases hfinite : n.isFinite with
  | true =>
      obtain ⟨read, hnumeral, -⟩ := Number.numeral_unsignedText (Decimal.shortest n)
      have hchars := hnumeral.isNumeric
      obtain ⟨first, rest, hcons, hfirst⟩ := hnumeral.exists_cons
      rw [Number.toList_text .yaml hfinite, Number.signText, hcons]
      rw [hcons] at hchars
      obtain ⟨hplain, hsigned⟩ := startsStructure_of_digit hfirst rest
      cases n.isNegative with
      | true =>
          exact plainText_of_numeric (List.cons_ne_nil _ _)
            (List.forall_mem_cons.mpr ⟨by decide, hchars⟩) hsigned
      | false => exact plainText_of_numeric (List.cons_ne_nil _ _) hchars hplain
  | false =>
      have htext : n.text .yaml = ".nan" ∨ n.text .yaml = ".inf" ∨ n.text .yaml = "-.inf" := by
        cases hnumber : n.isNaN with
        | true => exact Or.inl (if_pos hnumber)
        | false =>
            have hinfinite : n.isInfinite := by
              rw [Number.isFinite, decide_eq_false_iff_not] at hfinite
              rw [Number.isNaN, decide_eq_false_iff_not] at hnumber
              rw [Number.isInfinite, beq_iff_eq]
              exact UInt64.le_antisymm (UInt64.not_lt.mp hnumber) (UInt64.not_lt.mp hfinite)
            right
            rw [Number.text, hnumber, if_neg (by decide), if_pos hinfinite]
            cases n.isNegative
            · exact Or.inl rfl
            · exact Or.inr rfl
      rcases htext with htext | htext | htext <;> rw [htext] <;>
        exact ⟨by decide, by decide, by decide⟩

theorem plainText_bool (b : Bool) : PlainText (if b then "true" else "false").toList := by
  cases b <;> exact ⟨by decide, by decide, by decide⟩

end Numbers

/-! ## Leaves -/

/-- What a printed leaf is read as. -/
def leaf : Scalar → Scalar
  | .text s => if styleOf s = .plain then .word s else .text s
  | .bool b => .word (if b then "true" else "false")
  | .number n => .word (n.text .yaml)
  | s => s

/-- The leaves that programs are printed with. -/
def isWrittenLeaf : Scalar → Bool
  | .text _ | .bool _ | .number _ => true
  | _ => false

/-- What is left behind a leaf that started on a line: the next line, and no colon that could
make a key of the leaf. -/
structure Ends (line n : Nat) (after : List Char) (rest : List Cell) : Prop where
  next : ∃ later, skipAfter rest = cells later n after
  colon : ∀ start : Cell, start.line = line → afterColon? start rest = none

section Ends

variable {line later n : Nat} {after : List Char}

theorem Ends.of_line (hafter : Starts after) (later column : Nat) :
    Ends line n after (cells later column ('\n' :: (spaces n ++ after))) where
  next := ⟨_, skip_line n hafter⟩
  colon := by
    intro start _
    rw [cells_cons_of_break (by decide)]
    rfl

theorem Ends.of_later (hafter : Starts after) (hlater : line < later) :
    Ends line n after (cells later n after) where
  next := ⟨_, skip_of_starts hafter⟩
  colon := by
    intro start hstart
    cases after with
    | nil => rfl
    | cons c rest =>
        obtain ⟨hblank, -⟩ := hafter c rfl
        simp only [isBlank, Bool.or_eq_false_iff, decide_eq_false_iff_not] at hblank
        have hline : later ≠ start.line := by omega
        rw [cells_cons_of_line hblank.2, afterColon?, skipOnLine,
          List.dropWhile_cons_of_neg (by simp [hblank.1])]
        simp [isKeyColon, hline]

end Ends

section TextLine

variable (fuel line place : Nat) (anchors : List (String × Document)) {column n : Nat}
  {after : List Char}

/-- A line that is plain is read as a word. -/
theorem lead?_plainLine {s : List Char} (hs : PlainText s) (hn : n ≤ column)
    (hafter : Starts after) : ∃ rest, lead? fuel (some column)
      ⟨cells line place (s ++ ['\n'] ++ (spaces n ++ after)), anchors⟩ =
        some (bareLead (.scalar (.word (String.ofList s))) rest anchors) ∧
          Ends line n after rest := by
  have hcloses : Closes ((some column).elim 0 (· + 1)) line ('\n' :: (spaces n ++ after)) :=
    closes_line (Nat.lt_succ_of_le hn) hafter
  have hread : lead? fuel (some column)
      ⟨cells line place (s ++ '\n' :: (spaces n ++ after)), anchors⟩ = _ :=
    lead?_plainText hs hcloses
  rw [spanBlanks_line _ _ _ hafter] at hread
  rw [List.append_assoc]
  exact ⟨_, hread, Ends.of_later hafter (Nat.lt_succ_self line)⟩

/-- A printed text is read back. -/
theorem lead?_textLine (hn : n ≤ column) (hafter : Starts after) (text : String) : ∃ rest,
    lead? fuel (some column) ⟨cells line place (textLine (column + 2) text ++ (spaces n ++ after)),
      anchors⟩ = some (bareLead (.scalar (leaf (.text text))) rest anchors) ∧
        Ends line n after rest := by
  rw [textLine, leaf]
  cases hstyle : styleOf text with
  | plain =>
      have hread := lead?_plainLine fuel line place anchors (plainText_of_style hstyle) hn hafter
      rwa [String.ofList_toList] at hread
  | single =>
      have hquotes := quotes_singleBody (Nat.succ_pos (column + 1)) (singleText_of_style hstyle)
      have hread : lead? fuel (some column) ⟨cells line place ('\'' ::
          (singleBody (column + 2) text.toList ++ '\'' :: '\n' :: (spaces n ++ after))),
            anchors⟩ = _ :=
        lead?_quotes (Or.inr rfl) hquotes nofun
      rw [String.ofList_toList] at hread
      have hprinted : single (column + 2) text.toList ++ ['\n'] ++ (spaces n ++ after) = '\'' ::
          (singleBody (column + 2) text.toList ++ '\'' :: '\n' :: (spaces n ++ after)) := by
        simp [single_eq]
      rw [if_neg (show Style.single ≠ .plain by decide)]
      dsimp only
      rw [hprinted, hread]
      exact ⟨_, rfl, Ends.of_line hafter _ _⟩
  | double =>
      have hread : lead? fuel (some column) ⟨cells line place ('"' ::
          (text.toList.flatMap escape ++ '"' :: '\n' :: (spaces n ++ after))), anchors⟩ = _ :=
        lead?_quotes (Or.inl rfl) (quotes_escape text.toList) nofun
      rw [String.ofList_toList] at hread
      have hprinted : '"' :: text.toList.flatMap escape ++ ['"', '\n'] ++ (spaces n ++ after) =
          '"' :: (text.toList.flatMap escape ++ '"' :: '\n' :: (spaces n ++ after)) := by simp
      rw [if_neg (show Style.double ≠ .plain by decide)]
      dsimp only
      rw [hprinted, hread]
      exact ⟨_, rfl, Ends.of_line hafter _ _⟩
  | literal =>
      obtain ⟨hfeed, hprintable⟩ := printable_of_literal hstyle
      have hsome := List.ne_nil_of_mem hfeed
      obtain ⟨later, hlater, hblock⟩ := block?_literal hsome hprintable hn hafter line (place + 1)
      have hread : lead? fuel (some column) ⟨⟨'|', line, place⟩ :: cells line (place + 1)
          ((literalHead text.toList).tail ++ (indented (column + 2) true text.toList ++
            lastBreak text.toList ++ (spaces n ++ after))), anchors⟩ = _ := lead?_block hblock
      rw [String.ofList_toList, ← cells_cons_of_line (by decide)] at hread
      have hlast : (if text.toList.getLast?.any isBreak then [] else ['\n']) =
          lastBreak text.toList := rfl
      have hprinted : literalHead text.toList ++ indented (column + 2) true text.toList ++
          lastBreak text.toList ++ (spaces n ++ after) = '|' :: ((literalHead text.toList).tail ++
            (indented (column + 2) true text.toList ++ lastBreak text.toList ++
              (spaces n ++ after))) := by
        simp [literalHead_eq]
      rw [if_neg (show Style.literal ≠ .plain by decide)]
      dsimp only
      rw [hlast, hprinted, hread]
      exact ⟨_, rfl, Ends.of_later hafter hlater⟩

/-- A printed leaf is read back. -/
theorem lead?_scalarLine (hn : n ≤ column) (hafter : Starts after) {s : Scalar}
    (hs : isWrittenLeaf s) : ∃ rest, lead? fuel (some column)
      ⟨cells line place (scalarLine (column + 2) s ++ (spaces n ++ after)), anchors⟩ =
        some (bareLead (.scalar (leaf s)) rest anchors) ∧ Ends line n after rest := by
  cases s with
  | text text => exact lead?_textLine fuel line place anchors hn hafter text
  | bool b =>
      have hread := lead?_plainLine fuel line place anchors (plainText_bool b) hn hafter
      rw [String.ofList_toList] at hread
      cases b <;> exact hread
  | number x =>
      have hread := lead?_plainLine fuel line place anchors (plainText_number x) hn hafter
      rwa [String.ofList_toList] at hread
  | null => cases hs
  | int i => cases hs
  | word w => cases hs

end TextLine

/-! ## What a node starts with -/

/-- The start of something that is no item of a list. -/
structure Begins (s : List Char) : Prop where
  starts : Starts s
  stands : Stands s
  dash : startsSign '-' s = false

/-- The start of a node that is neither a list nor an object with a question mark. -/
structure Opens (s : List Char) : Prop extends Begins s where
  mark : startsSign '?' s = false

theorem Opens.of_head {c : Char} (hblank : isBlank c = false)
    (hc : ['#', '-', '?', '.'].contains c = false) (rest : List Char) : Opens (c :: rest) := by
  simp only [List.contains_cons, List.contains_nil, Bool.or_eq_false_iff,
    beq_eq_false_iff_ne, ne_eq] at hc
  refine ⟨⟨Starts.cons hblank hc.1, ⟨List.cons_ne_nil _ _, ?_, ?_⟩, ?_⟩, ?_⟩
  · simp [startsMarker, List.isPrefixOf, Ne.symm hc.2.1]
  · simp [startsMarker, List.isPrefixOf, Ne.symm hc.2.2.2.1]
  · rw [startsSign, decide_eq_false hc.2.1]
    rfl
  · rw [startsSign, decide_eq_false hc.2.2.1]
    rfl

theorem PlainText.opens {s after : List Char} (h : PlainText s)
    (hdash : after.head? ≠ Option.some '-') (hdot : after.head? ≠ Option.some '.') :
    Opens (s ++ after) :=
  ⟨⟨h.starts, h.stands hdash hdot, h.not_sign (Or.inr (Or.inr rfl))⟩, h.not_sign (Or.inl rfl)⟩

theorem opens_textLine (indent : Nat) (text : String) (after : List Char) :
    Opens (textLine indent text ++ after) := by
  rw [textLine]
  cases hstyle : styleOf text with
  | plain =>
      rw [List.append_assoc]
      exact (plainText_of_style hstyle).opens (by simp) (by simp)
  | single => exact Opens.of_head (by decide) (by decide) _
  | double => exact Opens.of_head (by decide) (by decide) _
  | literal => exact Opens.of_head (by decide) (by decide) _

theorem opens_scalarLine {s : Scalar} (hs : isWrittenLeaf s) (indent : Nat) (after : List Char) :
    Opens (scalarLine indent s ++ after) := by
  cases s with
  | text text => exact opens_textLine indent text after
  | bool b =>
      have hopens : Opens ((if b then "true" else "false").toList ++ (['\n'] ++ after)) :=
        (plainText_bool b).opens (by simp) (by simp)
      cases b <;> exact hopens
  | number x =>
      rw [scalarLine, List.append_assoc]
      exact (plainText_number x).opens (by simp) (by simp)
  | null => cases hs
  | int i => cases hs
  | word w => cases hs

end FieldCalculus.Yaml
