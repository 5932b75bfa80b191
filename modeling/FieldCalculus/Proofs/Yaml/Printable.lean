import FieldCalculus.Proofs.Yaml.Document

/-!
Printed documents consist of characters that can be written as they are. So nothing in them is
replaced before they are read, whatever their texts hold.
-/

namespace FieldCalculus.Yaml

/-- Whether all characters can be written as they are. -/
def Printable (s : List Char) : Prop := ∀ c ∈ s, isPrintable c

instance (s : List Char) : Decidable (Printable s) :=
  inferInstanceAs (Decidable (∀ c ∈ s, isPrintable c))

namespace Printable

variable {a b : List Char}

theorem nil : Printable [] := fun _ hc => absurd hc List.not_mem_nil

theorem append (ha : Printable a) (hb : Printable b) : Printable (a ++ b) :=
  List.forall_mem_append.mpr ⟨ha, hb⟩

theorem cons {c : Char} (hc : isPrintable c) (hb : Printable b) : Printable (c :: b) :=
  List.forall_mem_cons.mpr ⟨hc, hb⟩

theorem spaces (n : Nat) : Printable (Yaml.spaces n) := by
  intro c hc
  rw [List.eq_of_mem_replicate hc]
  decide

theorem indented {indent : Nat} {fresh : Bool} (ha : Printable a) :
    Printable (Yaml.indented indent fresh a) := by
  induction a generalizing fresh with
  | nil => exact nil
  | cons c rest ih =>
      obtain ⟨hc, hrest⟩ := List.forall_mem_cons.mp ha
      rw [Yaml.indented]
      split
      · exact cons hc (ih hrest)
      · refine append ?_ (cons hc (ih hrest))
        split
        · exact spaces indent
        · exact nil

theorem single {indent : Nat} (ha : Printable a) : Printable (Yaml.single indent a) := by
  have hdoubled : Printable (a.flatMap doubled) := by
    intro c hc
    obtain ⟨d, hd, hc⟩ := List.mem_flatMap.mp hc
    rw [doubled] at hc
    split at hc
    · have hquotes : Printable ['\'', '\''] := by decide
      exact hquotes c hc
    · rw [List.mem_singleton.mp hc]
      exact ha d hd
  have hclose : Printable (if a.getLast?.any isBreak then Yaml.spaces indent else []) := by
    split
    · exact spaces indent
    · exact nil
  rw [single_eq, singleBody]
  exact cons (by decide) (append (append (indented hdoubled) hclose) (cons (by decide) nil))

theorem flatMap_escape (s : List Char) : Printable (s.flatMap escape) := by
  intro c hc
  obtain ⟨d, -, hc⟩ := List.mem_flatMap.mp hc
  rcases escape_cases d with ⟨hbare, hescape⟩ | ⟨code, hescape, -, hcode⟩
  · rw [hescape, List.mem_singleton] at hc
    simp only [isBare, Bool.and_eq_true] at hbare
    rw [hc]
    exact hbare.1.1.1
  · rw [hescape, List.mem_cons] at hc
    rcases hc with rfl | hc
    · decide
    · exact hcode c hc

theorem literalHead (s : List Char) : Printable (Yaml.literalHead s) := by
  rw [literalHead_eq]
  cases hidesIndent s <;> cases chompOf s <;> decide

theorem textLine (indent : Nat) (text : String) : Printable (Yaml.textLine indent text) := by
  rw [Yaml.textLine]
  cases hstyle : styleOf text with
  | plain => exact append (plainText_of_style hstyle).printable (by decide)
  | single => exact append (single (singleText_of_style hstyle).printable) (by decide)
  | double => exact append (cons (by decide) (flatMap_escape _)) (by decide)
  | literal =>
      refine append (append (literalHead _) (indented (printable_of_literal hstyle).2)) ?_
      split
      · exact nil
      · decide

theorem scalarLine {s : Scalar} (hs : isWrittenLeaf s) (indent : Nat) :
    Printable (Yaml.scalarLine indent s) := by
  cases s with
  | text text => exact textLine indent text
  | bool b =>
      cases b
      · exact (by decide : Printable "false\n".toList)
      · exact (by decide : Printable "true\n".toList)
  | number n => exact append (plainText_number n).printable (by decide)
  | null => cases hs
  | int i => cases hs
  | word w => cases hs

theorem keyLead (column : Nat) (name : String) : Printable (Yaml.keyLead column name) := by
  cases hshort : isShortKey name with
  | true =>
      rw [keyLead_short hshort]
      refine append ?_ (by decide)
      intro c hc
      exact textLine (column + 2) name c (List.mem_of_mem_dropLast hc)
  | false =>
      rw [keyLead_long hshort]
      exact cons (by decide) (append (cons (by decide) (textLine (column + 2) name))
        (append (spaces column) (by decide)))

theorem valueLines {column : Nat} {name : String} {d : Document}
    (hmark : Printable (afterMark column d)) (hkey : Printable (afterKey column d)) :
    Printable (Yaml.valueLines column name d) := by
  rw [Yaml.valueLines]
  split
  · exact hkey
  · exact hmark

end Printable

mutual

theorem printable_document : ∀ (d : Document), d.isWritten → ∀ column,
    Printable (afterMark column d) ∧ Printable (afterKey column d)
  | .scalar s, h, column => by
      have hline := Printable.cons (c := ' ') (by decide) (Printable.scalarLine h (column + 2))
      exact ⟨hline, hline⟩
  | .list [], _, _ => by
      have hbrackets : Printable " []\n".toList := by decide
      exact ⟨hbrackets, hbrackets⟩
  | .list (d :: rest), h, column => by
      have hitems := fun column => printable_items (d :: rest) h column
      exact ⟨.cons (by decide) (hitems (column + 2)),
        .append (.cons (by decide) (.spaces column)) (hitems column)⟩
  | .object [], _, _ => by
      have hbrackets : Printable " \x7b\x7d\n".toList := by decide
      exact ⟨hbrackets, hbrackets⟩
  | .object (field :: rest), h, column => by
      have hfields := printable_fields (field :: rest) h (column + 2)
      exact ⟨.cons (by decide) hfields,
        .append (.cons (by decide) (.spaces (column + 2))) hfields⟩
  | .tagged d, h, _ => by cases h
  | .unreadable, h, _ => by cases h

theorem printable_items : ∀ (items : List Document), Document.areWritten items → ∀ column,
    Printable (itemLines column items)
  | [], _, _ => .nil
  | [d], h, column => by
      rw [Document.areWritten, Bool.and_eq_true] at h
      exact .cons (by decide) (printable_document d h.1 column).1
  | d :: item :: rest, h, column => by
      rw [Document.areWritten, Bool.and_eq_true] at h
      rw [itemLines_cons]
      exact .append (.append (.cons (by decide) (printable_document d h.1 column).1)
        (.spaces column)) (printable_items (item :: rest) h.2 column)

theorem printable_fields : ∀ (fields : List (String × Document)),
    Document.areFieldsWritten fields → ∀ column, Printable (fieldLines column fields)
  | [], _, _ => .nil
  | [(name, d)], h, column => by
      rw [Document.areFieldsWritten, Bool.and_eq_true] at h
      obtain ⟨hmark, hkey⟩ := printable_document d h.1 column
      exact .append (.keyLead column name) (.valueLines hmark hkey)
  | (name, d) :: field :: rest, h, column => by
      rw [Document.areFieldsWritten, Bool.and_eq_true] at h
      obtain ⟨hmark, hkey⟩ := printable_document d h.1 column
      rw [fieldLines_cons]
      exact .append (.append (.append (.keyLead column name) (.valueLines hmark hkey))
        (.spaces column)) (printable_fields (field :: rest) h.2 column)

end

end FieldCalculus.Yaml
