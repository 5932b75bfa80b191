import FieldCalculus.Proofs.Yaml.Leaf

/-!
Short keys are read up to their colon. They stand on one line, and escapes make them at most four
times as long as their bytes, so the colon is never too far away.
-/

namespace FieldCalculus.Yaml

/-! ## Length -/

theorem utf8ByteSize_cons (c : Char) (s : List Char) :
    (String.ofList (c :: s)).utf8ByteSize = c.utf8Size + (String.ofList s).utf8ByteSize := by
  have hcons : String.ofList (c :: s) = String.singleton c ++ String.ofList s := by
    apply String.toList_inj.mp
    simp
  rw [hcons, String.utf8ByteSize_append, String.utf8ByteSize_singleton]

/-- Texts that are spelt character by character grow with the size of each. -/
theorem length_flatMap_le {f : Char → List Char} {k : Nat} (hf : ∀ c, (f c).length ≤ k * c.utf8Size)
    (s : List Char) : (s.flatMap f).length ≤ k * (String.ofList s).utf8ByteSize := by
  induction s with
  | nil => exact Nat.zero_le _
  | cons c rest ih =>
      rw [List.flatMap_cons, List.length_append, utf8ByteSize_cons, Nat.mul_add]
      exact Nat.add_le_add (hf c) ih

theorem utf8Size_eq (c : Char) : c.utf8Size = if c.toNat ≤ 0x7f then 1
    else if c.toNat ≤ 0x7ff then 2 else if c.toNat ≤ 0xffff then 3 else 4 := rfl

theorem length_escape_le (c : Char) : (escape c).length ≤ 4 * c.utf8Size := by
  have hpos := Char.utf8Size_pos c
  unfold escape
  split
  · rw [List.length_singleton]
    omega
  · split
    · rw [List.length_cons, List.length_singleton]
      omega
    · split
      · rw [List.length_cons, List.length_cons, length_upperHex (by decide) (by omega)]
        omega
      · split
        · have hsize : 2 ≤ c.utf8Size := by
            rw [utf8Size_eq, if_neg (by omega)]
            split <;> decide
          rw [List.length_cons, List.length_cons, length_upperHex (by decide) (by omega)]
          omega
        · have hsize : c.utf8Size = 4 := by
            rw [utf8Size_eq, if_neg (by omega), if_neg (by omega), if_neg (by omega)]
          have hcode : c.toNat < 16 ^ 8 := by
            have hvalid : c.toNat.isValidChar := c.valid
            rcases hvalid with h | h <;> omega
          rw [List.length_cons, List.length_cons, length_upperHex (by decide) hcode, hsize]
          decide

theorem length_doubled_le (c : Char) : (doubled c).length ≤ 4 * c.utf8Size := by
  have hpos := Char.utf8Size_pos c
  unfold doubled
  split
  · rw [List.length_cons, List.length_singleton]
    omega
  · rw [List.length_singleton]
    omega

/-! ## Lines -/

theorem line_of_mem_escape {c : Char} : ∀ d ∈ escape c, isBreak d = false := by
  rcases escape_cases c with ⟨hbare, hescape⟩ | ⟨code, hescape, hcode, -⟩ <;> rw [hescape]
  · intro d hd
    simp only [isBare, Bool.and_eq_true, Bool.not_eq_true'] at hbare
    rw [List.mem_singleton.mp hd]
    exact hbare.1.1.2
  · exact List.forall_mem_cons.mpr ⟨by decide, hcode.line⟩

theorem singleBody_of_line {indent : Nat} {s : List Char} (h : ∀ c ∈ s, isBreak c = false) :
    singleBody indent s = s.flatMap doubled := by
  induction s with
  | nil => rfl
  | cons c rest ih =>
      rw [singleBody_char (h c List.mem_cons_self), ih fun d hd => h d (List.mem_cons_of_mem _ hd),
        List.flatMap_cons]

/-! ## Keys -/

/-- A short key without its colon. -/
def keyText (column : Nat) (name : String) : List Char := (textLine (column + 2) name).dropLast

section ShortKeys

variable {name : String} (hshort : isShortKey name)

include hshort

theorem line_of_isShortKey : ∀ c ∈ name.toList, isBreak c = false := by
  rw [isShortKey, Bool.and_eq_true, Bool.not_eq_true', List.any_eq_false] at hshort
  intro c hc
  exact Bool.eq_false_iff.mpr (hshort.1 c hc)

theorem size_of_isShortKey {f : Char → List Char} (hf : ∀ c, (f c).length ≤ 4 * c.utf8Size) :
    (name.toList.flatMap f).length ≤ 512 := by
  rw [isShortKey, Bool.and_eq_true, decide_eq_true_eq] at hshort
  have hlength := length_flatMap_le hf name.toList
  rw [String.ofList_toList] at hlength
  omega

/-- How a short key is written: plain, or between quotes on one line. -/
theorem keyText_cases (column : Nat) :
    (styleOf name = .plain ∧ keyText column name = name.toList) ∨
    (∃ quote body, (quote = '"' ∨ quote = '\'') ∧ leaf (.text name) = .text name ∧
      keyText column name = quote :: (body ++ [quote]) ∧ Quotes quote body name.toList ∧
        (∀ c ∈ body, isBreak c = false) ∧ body.length ≤ 512) := by
  have hline := line_of_isShortKey hshort
  rw [keyText, textLine, leaf]
  cases hstyle : styleOf name with
  | plain => exact Or.inl ⟨rfl, List.dropLast_concat⟩
  | single =>
      refine Or.inr ⟨'\'', singleBody (column + 2) name.toList, Or.inr rfl, rfl, ?_,
        quotes_singleBody (Nat.succ_pos _) (singleText_of_style hstyle), ?_, ?_⟩
      · exact List.dropLast_concat
      · rw [singleBody_of_line hline]
        intro c hc
        obtain ⟨d, hd, hc⟩ := List.mem_flatMap.mp hc
        exact line_of_mem_doubled (hline d hd) c hc
      · rw [singleBody_of_line hline]
        exact size_of_isShortKey hshort length_doubled_le
  | double =>
      refine Or.inr ⟨'"', name.toList.flatMap escape, Or.inl rfl, rfl, ?_, quotes_escape _, ?_,
        size_of_isShortKey hshort length_escape_le⟩
      · have hclose : '"' :: name.toList.flatMap escape ++ ['"', '\n'] =
            '"' :: (name.toList.flatMap escape ++ ['"']) ++ ['\n'] := by simp
        dsimp only
        rw [hclose, List.dropLast_concat]
      · intro c hc
        obtain ⟨d, -, hc⟩ := List.mem_flatMap.mp hc
        exact line_of_mem_escape c hc
  | literal =>
      have hbreak := hline _ (printable_of_literal hstyle).1
      cases hbreak

variable (fuel line place : Nat) (parent : Option Nat) (anchors : List (String × Document))
  (column : Nat) {after : List Char}

/-- A short key is read up to its colon. -/
theorem lead?_key (hafter : after.head?.all isBlank) :
    lead? fuel parent ⟨cells line place (keyText column name ++ ':' :: after), anchors⟩ =
      some (bareLead (.scalar (leaf (.text name)))
        (cells line (place + (keyText column name).length) (':' :: after)) anchors) := by
  rcases keyText_cases hshort column with ⟨hstyle, hkey⟩ |
    ⟨quote, body, hquote, hleaf, hkey, hquotes, hline, -⟩
  · have hread : lead? fuel parent ⟨cells line place (name.toList ++ ':' :: after), anchors⟩ = _ :=
      lead?_plainText (plainText_of_style hstyle) (closes_colon hafter)
    rw [spanBlanks_colon, String.ofList_toList] at hread
    rw [leaf, if_pos hstyle, hkey]
    exact hread
  · have hread : lead? fuel parent
        ⟨cells line place (quote :: (body ++ quote :: ':' :: after)), anchors⟩ = _ :=
      lead?_quotes hquote hquotes (by rintro rfl; simp)
    have hclose : ∀ c ∈ body ++ [quote], isBreak c = false := by
      intro c hc
      rcases List.mem_append.mp hc with hbody | hlast
      · exact hline c hbody
      · rw [List.mem_singleton.mp hlast]
        rcases hquote with rfl | rfl <;> decide
    have hplace : place + (quote :: (body ++ [quote])).length =
        place + 1 + (body ++ [quote]).length := by
      rw [List.length_cons]
      omega
    rw [String.ofList_toList, endLine_of_line line hclose, endColumn_of_line _ hclose] at hread
    rw [hleaf, hkey, hplace, List.cons_append, List.append_assoc]
    exact hread

theorem opens_key : Opens (keyText column name ++ ':' :: after) := by
  rcases keyText_cases hshort column with ⟨hstyle, hkey⟩ | ⟨quote, body, hquote, -, hkey, -⟩
  · rw [hkey]
    exact (plainText_of_style hstyle).opens (by simp) (by simp)
  · rw [hkey]
    rcases hquote with rfl | rfl
    · exact Opens.of_head (by decide) (by decide) _
    · exact Opens.of_head (by decide) (by decide) _

theorem length_keyText : (keyText column name).length ≤ longestKey := by
  rcases keyText_cases hshort column with ⟨-, hkey⟩ | ⟨quote, body, -, -, hkey, -, -, hlength⟩
  · have hsingle : ∀ c : Char, [c].length ≤ 4 * c.utf8Size := fun c => by
      have hpos := Char.utf8Size_pos c
      rw [List.length_singleton]
      omega
    have hlength := size_of_isShortKey hshort hsingle
    rw [List.flatMap_singleton'] at hlength
    rw [hkey]
    exact hlength.trans (by decide)
  · rw [hkey, List.length_cons, List.length_append, List.length_singleton, longestKey]
    omega

/-- The colon behind a short key makes a key of it. -/
theorem afterColon?_key (hafter : after.head?.all isBlank) (start : Cell)
    (hline : start.line = line) (hcolumn : start.column = place) :
    afterColon? start (cells line (place + (keyText column name).length) (':' :: after)) =
      some (cells line (place + (keyText column name).length + 1) after) := by
  have hlength := length_keyText hshort column
  have hnear : place + (keyText column name).length ≤ place + longestKey := by omega
  rw [cells_cons_of_line (by decide), afterColon?, skipOnLine, List.dropWhile_cons_of_neg (by simp)]
  simp [isSign, blankNext_cells, hafter, isKeyColon, hline, hcolumn, hnear]

end ShortKeys

end FieldCalculus.Yaml
