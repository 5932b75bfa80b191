import FieldCalculus.Json.Read
import FieldCalculus.Proofs.Json.Scaling
import FieldCalculus.Proofs.Yaml.Document

/-!
Printed documents are read back. Whatever spaces stand between its parts, a printed document is
scanned as the tokens of its parts, one after the other; and these are read as the document, with
every number in it as it is read from its text.
-/

namespace FieldCalculus

namespace Json

/-! ## Tokens -/

/-- The token of a leaf. -/
def leafToken : Scalar → Token
  | .text s => .text (some s.toList)
  | .bool b => .bool b
  | .number n =>
    if n.isFinite then .number (.ofDecimal n.isNegative (Decimal.shortest n)) else .null
  | _ => .null

/-- What a printed leaf is read as. -/
def leaf : Scalar → Scalar
  | .number n => if n.isFinite then .number (NumberText.reread n) else .null
  | s => s

mutual

/-- The tokens of a printed document. -/
def tokens : Document → List Token
  | .scalar s => [leafToken s]
  | .list items => .openList :: itemTokens items ++ [.closeList]
  | .object fields => .openObject :: fieldTokens fields ++ [.closeObject]
  | .tagged d => tokens d
  | .unreadable => [.null]

def itemTokens : List Document → List Token
  | [] => []
  | [d] => tokens d
  | d :: rest => tokens d ++ .comma :: itemTokens rest

def fieldTokens : List (String × Document) → List Token
  | [] => []
  | [(name, d)] => .text (some name.toList) :: .colon :: tokens d
  | (name, d) :: rest =>
    .text (some name.toList) :: .colon :: tokens d ++ .comma :: fieldTokens rest

end

/-! ## Scanning -/

section Scanning

/-- Only spaces stand between the parts. -/
structure Spacing.Blank (s : Spacing) : Prop where
  newline : ∀ depth, ∀ c ∈ s.newline depth, Token.isSpace c
  afterColon : ∀ c ∈ s.afterColon, Token.isSpace c

theorem Spacing.blank_lines : Spacing.lines.Blank where
  newline depth c hc := by
    rcases List.mem_cons.mp hc with rfl | hspace
    · decide
    · rw [List.eq_of_mem_replicate hspace]
      decide
  afterColon c hc := by
    rw [List.mem_singleton.mp hc]
    decide

/-- Numbers that have no digits are written as nothing. -/
theorem text_of_not_isFinite {n : Number} (h : n.isFinite = false) : n.text .json = "null" := by
  rw [Number.isFinite, decide_eq_false_iff_not, UInt64.lt_iff_toNat_lt] at h
  unfold Number.text
  split
  · rfl
  · rename_i hnumber
    have hinfinite : n.isInfinite := by
      rw [Number.isNaN, decide_eq_true_eq, UInt64.lt_iff_toNat_lt] at hnumber
      rw [Number.isInfinite, beq_iff_eq, ← UInt64.toNat_inj]
      omega
    rw [if_pos hinfinite]
    split <;> rfl

theorem shortest_eq_zero {n : Number} (hfinite : n.isFinite)
    (h : (Decimal.shortest n).coefficient = 0) : (Decimal.shortest n).exponent = 0 := by
  rcases Nat.eq_zero_or_pos n.magnitude.toNat with hzero | hpos
  · rw [NumberText.shortest_of_zero hzero]
  · have hsome := Decimal.coefficient_pos hpos (Decimal.rounds_shortest hfinite hpos)
    omega

theorem scans_scalar {s : Scalar} (hs : Yaml.isWrittenLeaf s) :
    ScansOpen (scalar s) [leafToken s] := by
  cases s with
  | text s => exact (Scans.quoted s).isOpen
  | bool b => exact (Scans.bool b).isOpen
  | number n =>
      cases hfinite : n.isFinite with
      | true =>
          rw [scalar, leafToken, if_pos hfinite, NumberText.chars_ofDecimal hfinite]
          exact .number (NumberText.regular_ofDecimal _ (shortest_eq_zero hfinite))
      | false =>
          rw [scalar, leafToken, if_neg (by rw [hfinite]; decide), text_of_not_isFinite hfinite]
          exact Scans.null.isOpen
  | null | int _ | word _ => cases hs

variable {s : Spacing} (hs : s.Blank)

include hs

theorem ends_newline (depth : Nat) {c : Char} (hc : continues c = false) (rest : List Char) :
    Ends (s.newline depth ++ [c] ++ rest) := by
  rw [List.append_assoc]
  refine ends_spaces (hs.newline depth) ?_
  rintro _ ⟨⟩
  exact hc

omit hs in
theorem scans_comma {front back : List Char} {front' back' : List Token}
    (hfront : ScansOpen front front') (hback : ScansOpen back back') :
    ScansOpen (front ++ ',' :: back) (front' ++ .comma :: back') := by
  have hcomma : Scans (front ++ [',']) (front' ++ [.comma]) :=
    hfront.append Scans.comma fun _ => by rintro _ ⟨⟩; decide
  have hall := hcomma.appendOpen hback
  rwa [List.append_assoc, List.append_assoc] at hall

theorem scans_field {d : Document} {depth : Nat} (h : ScansOpen (printed s depth d) (tokens d))
    (name : String) : ScansOpen
      (s.newline depth ++ quoted name ++ ':' :: s.afterColon ++ printed s depth d)
      (.text (some name.toList) :: .colon :: tokens d) := by
  have hname := (Scans.spaces (hs.newline depth)).append (Scans.quoted name)
  have hcolon := Scans.colon.append (Scans.spaces hs.afterColon)
  exact (hname.append hcolon).appendOpen h

mutual

theorem scans_printed : ∀ (d : Document), d.isWritten → ∀ depth,
    ScansOpen (printed s depth d) (tokens d)
  | .scalar v, hd, _ => scans_scalar hd
  | .list [], _, _ => (Scans.openList.append Scans.closeList).isOpen
  | .list (d :: rest), hd, depth => by
      have hitems := Scans.openList.appendOpen (scans_items (d :: rest) hd (depth + 1))
      have hclose := (Scans.spaces (hs.newline depth)).append Scans.closeList
      have hall := hitems.append hclose (ends_newline hs depth (by decide))
      rw [← List.append_assoc] at hall
      exact hall.isOpen
  | .object [], _, _ => (Scans.openObject.append Scans.closeObject).isOpen
  | .object (field :: rest), hd, depth => by
      have hfields := Scans.openObject.appendOpen (scans_fields (field :: rest) hd (depth + 1))
      have hclose := (Scans.spaces (hs.newline depth)).append Scans.closeObject
      have hall := hfields.append hclose (ends_newline hs depth (by decide))
      rw [← List.append_assoc] at hall
      exact hall.isOpen

theorem scans_items : ∀ (items : List Document), Document.areWritten items → ∀ depth,
    ScansOpen (printedItems s depth items) (itemTokens items)
  | [], _, _ => Scans.nil.isOpen
  | [d], hitems, depth => by
      rw [Document.areWritten_cons, Bool.and_eq_true] at hitems
      exact (Scans.spaces (hs.newline depth)).appendOpen (scans_printed d hitems.1 depth)
  | d :: other :: rest, hitems, depth => by
      rw [Document.areWritten_cons, Bool.and_eq_true] at hitems
      have hfirst := (Scans.spaces (hs.newline depth)).appendOpen (scans_printed d hitems.1 depth)
      exact scans_comma hfirst (scans_items (other :: rest) hitems.2 depth)

theorem scans_fields : ∀ (fields : List (String × Document)), Document.areFieldsWritten fields →
    ∀ depth, ScansOpen (printedFields s depth fields) (fieldTokens fields)
  | [], _, _ => Scans.nil.isOpen
  | [(name, d)], hfields, depth => by
      rw [Document.areFieldsWritten_cons, Bool.and_eq_true] at hfields
      exact scans_field hs (scans_printed d hfields.1 depth) name
  | (name, d) :: other :: rest, hfields, depth => by
      rw [Document.areFieldsWritten_cons, Bool.and_eq_true] at hfields
      exact scans_comma (scans_field hs (scans_printed d hfields.1 depth) name)
        (scans_fields (other :: rest) hfields.2 depth)

end

end Scanning

/-! ## Reading -/

section Reading

variable {rest : List Token}

theorem value?_items (h : rest.head? ≠ some .closeList) (fuel : Nat) :
    value? (fuel + 1) (.openList :: rest) =
      (items? fuel rest).map fun (items, rest) => (.list items, rest) := by
  cases rest with
  | nil => rfl
  | cons t rest =>
      cases t with
      | closeList => exact absurd rfl h
      | _ => rfl

theorem value?_fields (h : rest.head? ≠ some .closeObject) (fuel : Nat) :
    value? (fuel + 1) (.openObject :: rest) =
      (fields? fuel rest).map fun (fields, rest) => (.ofFields fields, rest) := by
  cases rest with
  | nil => rfl
  | cons t rest =>
      cases t with
      | closeObject => exact absurd rfl h
      | _ => rfl

theorem value?_leafToken {s : Scalar} (hs : Yaml.isWrittenLeaf s) (fuel : Nat) :
    value? (fuel + 1) (leafToken s :: rest) = some (.scalar (leaf s), rest) := by
  cases s with
  | text s =>
      change some (Document.text (String.ofList s.toList), rest) = _
      rw [String.ofList_toList]
      rfl
  | bool b => rfl
  | number n =>
      cases hfinite : n.isFinite with
      | true =>
          rw [leafToken, leaf, if_pos hfinite, if_pos hfinite]
          change some (NumberText.document _, rest) = _
          rw [NumberText.document_shortest hfinite]
          rfl
      | false =>
          rw [leafToken, leaf, if_neg (by rw [hfinite]; decide), if_neg (by rw [hfinite]; decide)]
          rfl
  | null | int _ | word _ => cases hs

/-- No document starts with the end of a list. -/
theorem head_tokens {d : Document} (h : d.isWritten) :
    ∃ t others, tokens d = t :: others ∧ t ≠ .closeList := by
  cases d with
  | scalar s =>
      refine ⟨_, [], rfl, ?_⟩
      cases s with
      | number n =>
          rw [leafToken]
          split <;> exact nofun
      | _ => exact nofun
  | list items => exact ⟨.openList, _, rfl, nofun⟩
  | object fields => exact ⟨.openObject, _, rfl, nofun⟩
  | tagged _ | unreadable => cases h

theorem itemTokens_cons (d other : Document) (items : List Document) :
    itemTokens (d :: other :: items) = tokens d ++ .comma :: itemTokens (other :: items) := rfl

theorem fieldTokens_cons (name : String) (d : Document) (other : String × Document)
    (fields : List (String × Document)) : fieldTokens ((name, d) :: other :: fields) =
      .text (some name.toList) :: .colon :: (tokens d ++ .comma :: fieldTokens (other :: fields)) :=
  rfl

theorem head_itemTokens {d : Document} (h : d.isWritten) (items : List Document) :
    ∃ t others, itemTokens (d :: items) = t :: others ∧ t ≠ .closeList := by
  obtain ⟨t, others, htokens, ht⟩ := head_tokens h
  cases items with
  | nil => exact ⟨t, others, htokens, ht⟩
  | cons other items =>
      rw [itemTokens_cons, htokens]
      exact ⟨t, _, rfl, ht⟩

mutual

/-- The tokens of a document are read up to what follows them. -/
theorem value?_tokens : ∀ (d : Document), d.isWritten → ∀ (fuel : Nat) (rest : List Token),
    2 * (tokens d).length ≤ fuel + 1 →
      value? fuel (tokens d ++ rest) = some (d.mapLeaves leaf, rest)
  | .scalar s, h, fuel + 1, rest, _ => value?_leafToken h fuel
  | .list [], _, fuel + 1, rest, _ => rfl
  | .list (d :: items), h, fuel + 1, rest, hfuel => by
      rw [tokens, List.length_append, List.length_cons, List.length_singleton] at hfuel
      have hitems := items?_itemTokens d items h fuel rest (by omega)
      obtain ⟨t, others, htokens, ht⟩ :=
        head_itemTokens (Bool.and_eq_true_iff.mp h).1 items
      rw [tokens, List.cons_append, List.cons_append, List.append_assoc, value?_items,
        List.singleton_append, hitems]
      · rfl
      · rw [htokens]
        exact fun heq => ht (Option.some.inj heq)
  | .object [], _, fuel + 1, rest, _ => rfl
  | .object (field :: fields), h, fuel + 1, rest, hfuel => by
      rw [tokens, List.length_append, List.length_cons, List.length_singleton] at hfuel
      have hfields := fields?_fieldTokens field fields h fuel rest (by omega)
      rw [tokens, List.cons_append, List.cons_append, List.append_assoc, value?_fields,
        List.singleton_append, hfields, Option.map_some]
      · dsimp only
        rw [Document.ofFields_map]
        rfl
      · cases fields <;> exact nofun

theorem items?_itemTokens : ∀ (d : Document) (items : List Document),
    Document.areWritten (d :: items) → ∀ (fuel : Nat) (rest : List Token),
      2 * (itemTokens (d :: items)).length ≤ fuel →
        items? fuel (itemTokens (d :: items) ++ .closeList :: rest) =
          some (Document.mapItems leaf (d :: items), rest)
  | d, items, h, 0, rest, hfuel => by
      obtain ⟨t, others, htokens, -⟩ := head_itemTokens (Bool.and_eq_true_iff.mp h).1 items
      rw [htokens] at hfuel
      cases hfuel
  | d, [], h, fuel + 1, rest, hfuel => by
      rw [itemTokens] at hfuel ⊢
      rw [items?, value?_tokens d (Bool.and_eq_true_iff.mp h).1 fuel _ hfuel]
      rfl
  | d, other :: items, h, fuel + 1, rest, hfuel => by
      obtain ⟨hd, hitems⟩ := Bool.and_eq_true_iff.mp h
      rw [itemTokens_cons, List.length_append, List.length_cons] at hfuel
      have hrest := items?_itemTokens other items hitems fuel rest (by omega)
      rw [itemTokens_cons, List.append_assoc, List.cons_append, items?,
        value?_tokens d hd fuel _ (by omega)]
      change (items? fuel _).map _ = _
      rw [hrest]
      rfl

theorem fields?_fieldTokens : ∀ (field : String × Document) (fields : List (String × Document)),
    Document.areFieldsWritten (field :: fields) → ∀ (fuel : Nat) (rest : List Token),
      2 * (fieldTokens (field :: fields)).length ≤ fuel →
        fields? fuel (fieldTokens (field :: fields) ++ .closeObject :: rest) =
          some ((Document.mapFields leaf (field :: fields)).map fun f => (some f.1, f.2), rest)
  | (name, d), [], h, 0, rest, hfuel => by cases hfuel
  | (name, d), _ :: _, h, 0, rest, hfuel => by cases hfuel
  | (name, d), [], h, fuel + 1, rest, hfuel => by
      rw [fieldTokens, List.length_cons, List.length_cons] at hfuel
      have hfirst := value?_tokens d (Bool.and_eq_true_iff.mp h).1 fuel (.closeObject :: rest)
        (by omega)
      rw [fieldTokens, List.cons_append, List.cons_append, fields?, hfirst, Option.map_some,
        String.ofList_toList]
      rfl
  | (name, d), other :: fields, h, fuel + 1, rest, hfuel => by
      obtain ⟨hd, hfields⟩ := Bool.and_eq_true_iff.mp h
      rw [fieldTokens_cons, List.length_cons, List.length_cons, List.length_append,
        List.length_cons] at hfuel
      have hrest := fields?_fieldTokens other fields hfields fuel rest (by omega)
      rw [fieldTokens_cons, List.cons_append, List.cons_append, List.append_assoc,
        List.cons_append, fields?, value?_tokens d hd fuel _ (by omega), Option.map_some,
        String.ofList_toList]
      change (fields? fuel _).map _ = _
      rw [hrest]
      rfl

end

/-- A printed document is read back, with its numbers as they are read. -/
theorem document?_pretty {d : Document} (h : d.isWritten) :
    document? (pretty d) = some (d.mapLeaves leaf) := by
  have htokens := (scans_printed Spacing.blank_lines d h 0).tokens?
  have hvalue := value?_tokens d h (2 * (tokens d).length) [] (by omega)
  rw [List.append_nil] at hvalue
  unfold document?
  simp [pretty, htokens, hvalue]

end Reading

end Json

end FieldCalculus
