import FieldCalculus.Proofs.Yaml.Nodes

/-!
Printed documents are read back as they were, up to what leaves are read as. Each part is read
where it was printed, by induction on the document.
-/

namespace FieldCalculus

/-! ## Documents that are written -/

namespace Document

mutual

/-- Whether a document has only the parts that programs are printed with. -/
def isWritten : Document → Bool
  | .scalar s => Yaml.isWrittenLeaf s
  | .list items => areWritten items
  | .object fields => areFieldsWritten fields
  | .tagged _ | .unreadable => false

def areWritten : List Document → Bool
  | [] => true
  | d :: rest => isWritten d && areWritten rest

def areFieldsWritten : List (String × Document) → Bool
  | [] => true
  | (_, d) :: rest => isWritten d && areFieldsWritten rest

end

@[simp]
theorem isWritten_text (s : String) : (text s).isWritten := rfl

@[simp]
theorem isWritten_bool (b : Bool) : (bool b).isWritten := rfl

@[simp]
theorem isWritten_list (items : List Document) :
    (list items).isWritten = areWritten items := rfl

@[simp]
theorem areWritten_nil : areWritten [] := rfl

@[simp]
theorem areWritten_cons (d : Document) (rest : List Document) :
    areWritten (d :: rest) = (d.isWritten && areWritten rest) := rfl

@[simp]
theorem isWritten_object (fields : List (String × Document)) :
    (object fields).isWritten = areFieldsWritten fields := rfl

@[simp]
theorem areFieldsWritten_nil : areFieldsWritten [] := rfl

@[simp]
theorem areFieldsWritten_cons (field : String × Document) (rest : List (String × Document)) :
    areFieldsWritten (field :: rest) = (field.2.isWritten && areFieldsWritten rest) := rfl

theorem ofFields_map (fields : List (String × Document)) :
    ofFields (fields.map fun field => (some field.1, field.2)) = .object fields := by
  rw [ofFields, Reading.mapM_eq_some (?_ : List.Forall₂ _ _ fields)]
  rw [List.forall₂_map_left_iff, List.forall₂_same]
  exact fun _ _ => rfl

end Document

namespace Yaml

/-! ## What is read -/

/-- A document behind a mark at a column is read up to the next line. -/
def ReadsBehindMark (d : Document) : Prop :=
  ∀ (fuel line column n : Nat) (loose : Bool) (after : List Char)
    (anchors : List (String × Document)), n ≤ column → Starts after →
      2 * (afterMark column d).length ≤ fuel → ∃ rest,
        node? fuel (some column) loose true line .none
          ⟨cells line (column + 1) (afterMark column d ++ (spaces n ++ after)), anchors⟩ =
            some (d.mapLeaves leaf, ⟨rest, anchors⟩) ∧ ∃ later, skipAfter rest = cells later n after

/-- A document behind a short key at a column is read up to the next line. -/
def ReadsBehindKey (d : Document) : Prop :=
  ∀ (fuel line column place n : Nat) (after : List Char) (anchors : List (String × Document)),
    column < place → Outside true column n after → 2 * (afterKey column d).length ≤ fuel → ∃ rest,
      node? fuel (some column) true false line .none
        ⟨cells line place (afterKey column d ++ (spaces n ++ after)), anchors⟩ =
          some (d.mapLeaves leaf, ⟨rest, anchors⟩) ∧ ∃ later, skipAfter rest = cells later n after

/-- The items of a list are read up to what lies outside of it. -/
def ReadsItems (items : List Document) : Prop :=
  ∀ (fuel line column n : Nat) (loose : Bool) (after : List Char)
    (anchors : List (String × Document)), items ≠ [] → Outside loose column n after →
      2 * (itemLines column items).length ≤ fuel → ∃ later,
        items? fuel loose column
          ⟨cells line column (itemLines column items ++ (spaces n ++ after)), anchors⟩ =
            some (Document.mapItems leaf items, ⟨cells later n after, anchors⟩)

/-- The fields of an object are read up to what lies outside of it. -/
def ReadsFields (fields : List (String × Document)) : Prop :=
  ∀ (fuel line column n : Nat) (after : List Char) (anchors : List (String × Document)),
    fields ≠ [] → Outside false column n after → 2 * (fieldLines column fields).length ≤ fuel →
      ∃ later, fields? fuel column
        ⟨cells line column (fieldLines column fields ++ (spaces n ++ after)), anchors⟩ =
          some ((Document.mapFields leaf fields).map fun field => (some field.1, field.2),
            ⟨cells later n after, anchors⟩)

/-! ## Leaves -/

section Leaves

variable (fuel line : Nat) {column place n : Nat} (loose keys : Bool) {after : List Char}
  (anchors : List (String × Document))

theorem inside_of_lt (h : column < place) : (some column).all (· < place) := decide_eq_true h

theorem node?_scalarLine {s : Scalar} (hs : isWrittenLeaf s) (hplace : column < place)
    (hn : n ≤ column) (hafter : Starts after) : ∃ rest,
      node? (fuel + 1) (some column) loose keys line .none
        ⟨cells line place (' ' :: scalarLine (column + 2) s ++ (spaces n ++ after)), anchors⟩ =
          some (.scalar (leaf s), ⟨rest, anchors⟩) ∧
            ∃ later, skipAfter rest = cells later n after := by
  obtain ⟨rest, hlead, hends⟩ := lead?_scalarLine fuel line (place + 1) anchors hn hafter hs
  have hopens := opens_scalarLine hs (column + 2) (spaces n ++ after)
  have hskip : ∀ tabs, skip tabs (cells line place (' ' :: scalarLine (column + 2) s ++
      (spaces n ++ after))) = _ := fun tabs =>
    (skip_cons_space _).trans (skip_of_starts hopens.starts)
  exact ⟨rest, node?_leaf hskip hopens (inside_of_lt (by omega)) hlead hends.colon, hends.next⟩

/-- An empty container in brackets. -/
theorem node?_brackets {first last : Char} {d : Document}
    (hbrackets : first = '[' ∧ last = ']' ∨ first = '\x7b' ∧ last = '\x7d')
    (hread : ∀ rest : List Cell, flowContent? fuel true
      ⟨⟨first, line, place + 1⟩ :: ⟨last, line, place + 2⟩ :: rest, anchors⟩ =
        some (d, ⟨rest, anchors⟩))
    (hplace : column < place) (hafter : Starts after) : ∃ rest,
      node? (fuel + 1) (some column) loose keys line .none
        ⟨cells line place ([' ', first, last, '\n'] ++ (spaces n ++ after)), anchors⟩ =
          some (d, ⟨rest, anchors⟩) ∧ ∃ later, skipAfter rest = cells later n after := by
  have hopens : Opens (first :: last :: '\n' :: (spaces n ++ after)) := by
    rcases hbrackets with ⟨rfl, rfl⟩ | ⟨rfl, rfl⟩ <;> exact Opens.of_head (by decide) (by decide) _
  have hcells : cells line (place + 1) (first :: last :: '\n' :: (spaces n ++ after)) =
      ⟨first, line, place + 1⟩ :: ⟨last, line, place + 2⟩ ::
        cells line (place + 3) ('\n' :: (spaces n ++ after)) := by
    rcases hbrackets with ⟨rfl, rfl⟩ | ⟨rfl, rfl⟩ <;> rfl
  have hlead : lead? fuel (some column)
      ⟨cells line (place + 1) (first :: last :: '\n' :: (spaces n ++ after)), anchors⟩ = some
        (bareLead d (cells line (place + 3) ('\n' :: (spaces n ++ after))) anchors) := by
    rw [hcells]
    refine lead?_flow ?_ (hread _)
    exact hbrackets.imp And.left And.left
  have hends : Ends line n after _ := Ends.of_line hafter line (place + 3)
  exact ⟨_, node?_leaf (fun tabs => (skip_cons_space _).trans (skip_of_starts hopens.starts)) hopens
    (inside_of_lt (by omega)) hlead hends.colon, hends.next⟩

theorem node?_emptyList (hplace : column < place) (hafter : Starts after) : ∃ rest,
    node? (fuel + 3) (some column) loose keys line .none
      ⟨cells line place (" []\n".toList ++ (spaces n ++ after)), anchors⟩ =
        some (.list [], ⟨rest, anchors⟩) ∧ ∃ later, skipAfter rest = cells later n after :=
  node?_brackets (fuel + 2) line loose keys anchors (Or.inl ⟨rfl, rfl⟩) (fun _ => rfl) hplace hafter

theorem node?_emptyObject (hplace : column < place) (hafter : Starts after) : ∃ rest,
    node? (fuel + 3) (some column) loose keys line .none
      ⟨cells line place (" \x7b\x7d\n".toList ++ (spaces n ++ after)), anchors⟩ =
        some (.object [], ⟨rest, anchors⟩) ∧ ∃ later, skipAfter rest = cells later n after :=
  node?_brackets (fuel + 2) line loose keys anchors (Or.inr ⟨rfl, rfl⟩) (fun _ => rfl) hplace hafter

end Leaves

/-! ## Lines -/

section Lines

variable {column : Nat} {d : Document} {name : String}

theorem afterMark_front (column : Nat) (h : d.isWritten) : ∃ s, afterMark column d = ' ' :: s := by
  cases d with
  | scalar s => exact ⟨_, rfl⟩
  | list items => cases items <;> exact ⟨_, rfl⟩
  | object fields => cases fields <;> exact ⟨_, rfl⟩
  | tagged d => cases h
  | unreadable => cases h

theorem afterKey_front (h : d.isWritten) : ∃ c s, afterKey column d = c :: s ∧ isBlank c := by
  cases d with
  | scalar s => exact ⟨_, _, rfl, by decide⟩
  | list items => cases items <;> exact ⟨_, _, rfl, by decide⟩
  | object fields => cases fields <;> exact ⟨_, _, rfl, by decide⟩
  | tagged d => cases h
  | unreadable => cases h

theorem afterMark_list (item : Document) (rest : List Document) :
    afterMark column (.list (item :: rest)) = ' ' :: itemLines (column + 2) (item :: rest) := rfl

theorem afterKey_list (item : Document) (rest : List Document) : afterKey column
    (.list (item :: rest)) = '\n' :: (spaces column ++ itemLines column (item :: rest)) := rfl

theorem afterMark_object (field : String × Document) (rest : List (String × Document)) :
    afterMark column (.object (field :: rest)) =
      ' ' :: fieldLines (column + 2) (field :: rest) := rfl

theorem afterKey_object (field : String × Document) (rest : List (String × Document)) :
    afterKey column (.object (field :: rest)) =
      '\n' :: (spaces (column + 2) ++ fieldLines (column + 2) (field :: rest)) := rfl

/-- What follows a key and its colon. -/
def valueLines (column : Nat) (name : String) (d : Document) : List Char :=
  if isShortKey name then afterKey column d else afterMark column d

theorem valueLines_front (column : Nat) (name : String) (h : d.isWritten) :
    ∃ c s, valueLines column name d = c :: s ∧ isBlank c := by
  rw [valueLines]
  split
  · exact afterKey_front h
  · obtain ⟨s, hs⟩ := afterMark_front column h
    exact ⟨' ', s, hs, by decide⟩

theorem fieldLines_singleton :
    fieldLines column [(name, d)] = keyLead column name ++ valueLines column name d := rfl

theorem fieldLines_cons (field : String × Document) (rest : List (String × Document)) :
    fieldLines column ((name, d) :: field :: rest) = keyLead column name ++
      valueLines column name d ++ spaces column ++ fieldLines column (field :: rest) := rfl

theorem itemLines_cons (item : Document) (rest : List Document) :
    itemLines column (d :: item :: rest) =
      '-' :: afterMark column d ++ spaces column ++ itemLines column (item :: rest) := rfl

theorem keyLead_short (hshort : isShortKey name) :
    keyLead column name = keyText column name ++ [':'] := if_pos hshort

theorem keyLead_long (hlong : isShortKey name = false) : keyLead column name =
    '?' :: (' ' :: scalarLine (column + 2) (.text name) ++ (spaces column ++ [':'])) := by
  rw [keyLead, hlong, if_neg (by decide), scalarLine]
  simp

theorem begins_keyLead (column : Nat) (name : String) (tail : List Char) :
    Begins (keyLead column name ++ tail) := by
  cases hshort : isShortKey name with
  | true =>
      rw [keyLead_short hshort, List.append_assoc]
      exact (opens_key hshort column).toBegins
  | false =>
      rw [keyLead_long hshort]
      exact ⟨Starts.cons (by decide) (by decide), ⟨List.cons_ne_nil _ _, rfl, rfl⟩, rfl⟩

/-- The first key of an object and what follows it. -/
theorem fieldLines_front (column : Nat) (name : String) (h : d.isWritten)
    (rest : List (String × Document)) (after : List Char) :
    ∃ tail, fieldLines column ((name, d) :: rest) ++ after = keyLead column name ++ tail ∧
      tail.head?.all isBlank := by
  obtain ⟨c, s, hvalue, hblank⟩ := valueLines_front column name h
  cases rest with
  | nil =>
      rw [fieldLines_singleton, hvalue, List.append_assoc]
      exact ⟨_, rfl, hblank⟩
  | cons field rest =>
      rw [fieldLines_cons, hvalue, List.append_assoc, List.append_assoc, List.append_assoc]
      exact ⟨_, rfl, hblank⟩

theorem fieldLines_begins (column : Nat) (name : String) (h : d.isWritten)
    (rest : List (String × Document)) (after : List Char) :
    Begins (fieldLines column ((name, d) :: rest) ++ after) := by
  obtain ⟨tail, htail, -⟩ := fieldLines_front column name h rest after
  rw [htail]
  exact begins_keyLead column name tail

/-- A list starts with a dash and a blank. -/
theorem itemLines_begins (column : Nat) (h : d.isWritten) (rest : List Document)
    (after : List Char) : Starts (itemLines column (d :: rest) ++ after) ∧
      Stands (itemLines column (d :: rest) ++ after) ∧
        startsSign '-' (itemLines column (d :: rest) ++ after) := by
  have hfront : ∃ tail, itemLines column (d :: rest) ++ after = '-' :: ' ' :: tail := by
    obtain ⟨s, hs⟩ := afterMark_front column h
    cases rest with
    | nil =>
        rw [itemLines, hs]
        exact ⟨_, rfl⟩
    | cons item rest =>
        rw [itemLines_cons, hs]
        exact ⟨_, rfl⟩
  obtain ⟨tail, htail⟩ := hfront
  rw [htail]
  exact ⟨Starts.cons (by decide) (by decide), ⟨List.cons_ne_nil _ _, rfl, rfl⟩, rfl⟩

theorem length_keyLead_pos (column : Nat) (name : String) : 0 < (keyLead column name).length := by
  cases hshort : isShortKey name with
  | true =>
      rw [keyLead_short hshort, List.length_append]
      exact Nat.succ_pos _
  | false =>
      rw [keyLead_long hshort]
      exact Nat.succ_pos _

end Lines

/-! ## Fields -/

theorem text?_leaf (s : String) : (leaf (.text s)).text? = some s := by
  rw [leaf]
  split <;> rfl

section Fields

variable {column n : Nat} {after : List Char} {d : Document}

/-- A printed field is read back. -/
theorem field?_printed (fuel line : Nat) (anchors : List (String × Document)) (name : String)
    (hd : d.isWritten) (hmark : ReadsBehindMark d) (hkey : ReadsBehindKey d)
    (hafter : Outside true column n after)
    (hfuel : 2 * (keyLead column name ++ valueLines column name d).length ≤ fuel + 1) : ∃ rest,
      field? fuel column ⟨cells line column (keyLead column name ++ (valueLines column name d ++
        (spaces n ++ after))), anchors⟩ = some ((some name, d.mapLeaves leaf), ⟨rest, anchors⟩) ∧
          ∃ later, skipAfter rest = cells later n after := by
  have hblank : (valueLines column name d ++ (spaces n ++ after)).head?.all isBlank := by
    obtain ⟨c, s, hvalue, hc⟩ := valueLines_front column name hd
    rw [hvalue]
    exact hc
  cases hshort : isShortKey name with
  | true =>
      rw [keyLead_short hshort] at hfuel ⊢
      rw [valueLines, hshort, if_pos rfl] at hfuel hblank ⊢
      simp only [List.length_append, List.length_singleton] at hfuel
      obtain ⟨fuel, rfl⟩ : ∃ more, fuel = more + 1 := ⟨fuel - 1, by omega⟩
      obtain ⟨rest, hnode, hnext⟩ := hkey fuel line column
        (column + (keyText column name).length + 1) n after anchors (by omega) hafter (by omega)
      refine ⟨rest, ?_, hnext⟩
      rw [List.append_assoc]
      exact field?_short (text?_leaf name) (opens_key hshort column)
        (lead?_key hshort fuel line column (some column) anchors column hblank)
        (afterColon?_key hshort line column column hblank) hnode
  | false =>
      rw [keyLead_long hshort] at hfuel ⊢
      rw [valueLines, hshort, if_neg (by decide)] at hfuel hblank ⊢
      simp only [List.length_append, List.length_cons, List.length_nil] at hfuel
      obtain ⟨fuel, rfl⟩ : ∃ more, fuel = more + 2 := ⟨fuel - 2, by omega⟩
      -- a long key is a node of its own, and the value stands behind a mark on the next line
      have hcolon : Starts (':' :: (afterMark column d ++ (spaces n ++ after))) :=
        Starts.cons (by decide) (by decide)
      obtain ⟨behind, hnodeKey, later, hbehind⟩ := node?_scalarLine fuel line true true anchors
        (s := .text name) rfl (Nat.lt_succ_self column) (Nat.le_refl column) hcolon
      obtain ⟨rest, hnode, hnext⟩ := hmark (fuel + 1) later column n true after anchors
        hafter.within hafter.starts (by omega)
      refine ⟨rest, ?_, hnext⟩
      have hread := field?_long (text?_leaf name) hnodeKey hbehind hblank rfl hnode
      simpa using hread

end Fields

/-! ## Lists -/

theorem ReadsItems.cons {d : Document} {rest : List Document} (hd : ReadsBehindMark d)
    (hrest : ReadsItems rest) (hwritten : Document.areWritten rest) : ReadsItems (d :: rest) := by
  intro fuel line column n loose after anchors _ hafter hfuel
  cases rest with
  | nil =>
      rw [itemLines, List.length_cons] at hfuel
      obtain ⟨fuel, rfl⟩ : ∃ more, fuel = more + 1 := ⟨fuel - 1, by omega⟩
      obtain ⟨behind, hnode, later, hnext⟩ := hd fuel line column n false after anchors
        hafter.within hafter.starts (by omega)
      exact ⟨later, items?_last hafter hnode hnext⟩
  | cons item others =>
      rw [itemLines_cons] at hfuel ⊢
      simp only [List.length_append, List.length_cons] at hfuel
      obtain ⟨fuel, rfl⟩ : ∃ more, fuel = more + 1 := ⟨fuel - 1, by omega⟩
      rw [Document.areWritten, Bool.and_eq_true] at hwritten
      obtain ⟨hstarts, hstands, hdash⟩ :=
        itemLines_begins column hwritten.1 others (spaces n ++ after)
      obtain ⟨behind, hnode, middle, hnext⟩ := hd fuel line column column false _ anchors
        (Nat.le_refl column) hstarts (by omega)
      obtain ⟨later, hitems⟩ := hrest fuel middle column n loose after anchors
        (List.cons_ne_nil _ _) hafter (by omega)
      refine ⟨later, ?_⟩
      rw [List.append_assoc, List.append_assoc, List.cons_append,
        items?_cons hstands hdash hnode hnext, hitems]
      rfl

/-! ## Objects -/

theorem ReadsFields.cons {name : String} {d : Document} {rest : List (String × Document)}
    (hd : d.isWritten) (hmark : ReadsBehindMark d) (hkey : ReadsBehindKey d)
    (hrest : ReadsFields rest) (hwritten : Document.areFieldsWritten rest) :
    ReadsFields ((name, d) :: rest) := by
  intro fuel line column n after anchors _ hafter hfuel
  cases rest with
  | nil =>
      rw [fieldLines_singleton] at hfuel ⊢
      obtain ⟨fuel, rfl⟩ : ∃ more, fuel = more + 1 := ⟨fuel - 1, by
        have hpos := length_keyLead_pos column name
        simp only [List.length_append] at hfuel
        omega⟩
      obtain ⟨behind, hfield, later, hnext⟩ := field?_printed fuel line anchors name hd hmark hkey
        hafter.loosen hfuel
      refine ⟨later, ?_⟩
      rw [List.append_assoc]
      exact fields?_last hafter hfield hnext
  | cons field others =>
      obtain ⟨name', d'⟩ := field
      rw [fieldLines_cons] at hfuel ⊢
      have hpos := length_keyLead_pos column name
      simp only [List.length_append] at hfuel
      obtain ⟨fuel, rfl⟩ : ∃ more, fuel = more + 1 := ⟨fuel - 1, by omega⟩
      rw [Document.areFieldsWritten, Bool.and_eq_true] at hwritten
      have hbegins := fieldLines_begins column name' hwritten.1 others (spaces n ++ after)
      obtain ⟨behind, hfield, middle, hnext⟩ := field?_printed fuel line anchors name hd hmark hkey
        ⟨Nat.le_refl column, hbegins.starts, Or.inr (Or.inr ⟨rfl, hbegins.dash⟩)⟩
        (by rw [List.length_append]; omega)
      obtain ⟨later, hfields⟩ := hrest fuel middle column n after anchors (List.cons_ne_nil _ _)
        hafter (by omega)
      refine ⟨later, ?_⟩
      rw [List.append_assoc, List.append_assoc, List.append_assoc,
        fields?_cons hbegins.stands hfield hnext, hfields]
      rfl

/-! ## Containers -/

section Containers

variable {fuel line line' place : Nat} {parent : Option Nat} {loose keys : Bool} {cs : List Cell}
  {after : List Char} {anchors : List (String × Document)} {p : Progress} {d : Document}

/-- A list behind blanks whose items are read. It is loose if it lies beside its container. -/
theorem node?_itemLines {beside : Bool} {read rest : List Document} (hd : d.isWritten)
    (hitems : items? fuel beside place
      ⟨cells line' place (itemLines place (d :: rest) ++ after), anchors⟩ = some (read, p))
    (hskip : ∀ tabs, skip tabs cs =
      skip tabs (cells line' place (itemLines place (d :: rest) ++ after)))
    (hinside : parent.all (· < place) = !beside) (hbeside : beside → loose ∧ parent = some place)
    (hkeys : keys || line' != line) :
    node? (fuel + 1) parent loose keys line .none ⟨cs, anchors⟩ = some (.list read, p) := by
  obtain ⟨hstarts, hstands, hdash⟩ := itemLines_begins place hd rest after
  have hallowed : parent.all (· < place) || (loose && parent = some place) := by
    rw [hinside]
    cases beside with
    | false => rfl
    | true =>
        obtain ⟨hloose, hparent⟩ := hbeside rfl
        simp [hloose, hparent]
  refine node?_list (fun tabs => (hskip tabs).trans (skip_of_starts hstarts)) hstands hdash hallowed
    hkeys ?_
  rw [hinside, Bool.not_not]
  exact hitems

/-- An object behind blanks whose fields are read. -/
theorem node?_fieldLines {read rest : List (String × Document)} {name : String}
    (hd : d.isWritten) (hfields : fields? fuel place
      ⟨cells line' place (fieldLines place ((name, d) :: rest) ++ after), anchors⟩ =
        some (read.map fun field => (some field.1, field.2), p))
    (hskip : ∀ tabs, skip tabs cs =
      skip tabs (cells line' place (fieldLines place ((name, d) :: rest) ++ after)))
    (hinside : parent.all (· < place)) (hkeys : keys || line' != line) :
    node? (fuel + 1) parent loose keys line .none ⟨cs, anchors⟩ = some (.object read, p) := by
  have hbegins := fieldLines_begins place name hd rest after
  have hstart : ∀ tabs, skip tabs cs = _ := fun tabs =>
    (hskip tabs).trans (skip_of_starts hbegins.starts)
  obtain ⟨tail, htail, hblank⟩ := fieldLines_front place name hd rest after
  rw [← Document.ofFields_map]
  cases hshort : isShortKey name with
  | true =>
      rw [htail, keyLead_short hshort, List.append_assoc] at hstart hfields
      exact node?_keyed hstart (opens_key hshort place) hinside hkeys
        (lead?_key hshort fuel line' place parent anchors place hblank)
        (afterColon?_key hshort line' place place hblank) hfields
  | false =>
      have hmark : startsSign '?' (fieldLines place ((name, d) :: rest) ++ after) := by
        rw [htail, keyLead_long hshort]
        rfl
      exact node?_asked hstart hbegins hmark hinside hkeys hfields

end Containers

/-! ## Nodes at their places -/

section Places

variable {d : Document}

theorem readsBehindMark_scalar {s : Scalar} (hs : isWrittenLeaf s) :
    ReadsBehindMark (.scalar s) := by
  intro fuel line column n loose after anchors hn hafter hfuel
  rw [afterMark, List.length_cons] at hfuel
  obtain ⟨fuel, rfl⟩ : ∃ more, fuel = more + 1 := ⟨fuel - 1, by omega⟩
  exact node?_scalarLine fuel line loose true anchors hs (Nat.lt_succ_self column) hn hafter

theorem readsBehindKey_scalar {s : Scalar} (hs : isWrittenLeaf s) : ReadsBehindKey (.scalar s) := by
  intro fuel line column place n after anchors hplace hafter hfuel
  rw [afterKey, List.length_cons] at hfuel
  obtain ⟨fuel, rfl⟩ : ∃ more, fuel = more + 1 := ⟨fuel - 1, by omega⟩
  exact node?_scalarLine fuel line true false anchors hs hplace hafter.within hafter.starts

theorem readsBehindMark_list {items : List Document} (hitems : ReadsItems items)
    (hwritten : Document.areWritten items) : ReadsBehindMark (.list items) := by
  intro fuel line column n loose after anchors hn hafter hfuel
  cases items with
  | nil =>
      have hsmall : 8 ≤ fuel := hfuel
      obtain ⟨fuel, rfl⟩ : ∃ more, fuel = more + 3 := ⟨fuel - 3, by omega⟩
      exact node?_emptyList fuel line loose true anchors (Nat.lt_succ_self column) hafter
  | cons item rest =>
      rw [afterMark_list, List.length_cons] at hfuel
      obtain ⟨fuel, rfl⟩ : ∃ more, fuel = more + 1 := ⟨fuel - 1, by omega⟩
      rw [Document.areWritten, Bool.and_eq_true] at hwritten
      obtain ⟨later, hread⟩ := hitems fuel line (column + 2) n false after anchors
        (List.cons_ne_nil _ _) ⟨by omega, hafter, Or.inr (Or.inl (by omega))⟩ (by omega)
      exact ⟨_, node?_itemLines hwritten.1 hread (fun tabs => skip_cons_space _)
        (inside_of_lt (by omega)) nofun rfl, later, skip_of_starts hafter⟩

theorem readsBehindKey_list {items : List Document} (hitems : ReadsItems items)
    (hwritten : Document.areWritten items) : ReadsBehindKey (.list items) := by
  intro fuel line column place n after anchors hplace hafter hfuel
  cases items with
  | nil =>
      have hsmall : 8 ≤ fuel := hfuel
      obtain ⟨fuel, rfl⟩ : ∃ more, fuel = more + 3 := ⟨fuel - 3, by omega⟩
      exact node?_emptyList fuel line true false anchors hplace hafter.starts
  | cons item rest =>
      rw [afterKey_list] at hfuel ⊢
      simp only [List.length_append, List.length_cons] at hfuel
      obtain ⟨fuel, rfl⟩ : ∃ more, fuel = more + 1 := ⟨fuel - 1, by omega⟩
      rw [Document.areWritten, Bool.and_eq_true] at hwritten
      obtain ⟨later, hread⟩ := hitems fuel (line + 1) column n true after anchors
        (List.cons_ne_nil _ _) hafter (by omega)
      refine ⟨_, node?_itemLines hwritten.1 hread (fun tabs => ?_) (by simp) (fun _ => ⟨rfl, rfl⟩)
        (by simp), later, skip_of_starts hafter.starts⟩
      rw [List.cons_append, List.append_assoc, skip_cons_break (by decide), skip_spaces,
        Nat.zero_add]

theorem readsBehindMark_object {fields : List (String × Document)} (hfields : ReadsFields fields)
    (hwritten : Document.areFieldsWritten fields) : ReadsBehindMark (.object fields) := by
  intro fuel line column n loose after anchors hn hafter hfuel
  cases fields with
  | nil =>
      have hsmall : 8 ≤ fuel := hfuel
      obtain ⟨fuel, rfl⟩ : ∃ more, fuel = more + 3 := ⟨fuel - 3, by omega⟩
      exact node?_emptyObject fuel line loose true anchors (Nat.lt_succ_self column) hafter
  | cons field rest =>
      rw [afterMark_object, List.length_cons] at hfuel
      obtain ⟨fuel, rfl⟩ : ∃ more, fuel = more + 1 := ⟨fuel - 1, by omega⟩
      rw [Document.areFieldsWritten, Bool.and_eq_true] at hwritten
      obtain ⟨later, hread⟩ := hfields fuel line (column + 2) n after anchors
        (List.cons_ne_nil _ _) ⟨by omega, hafter, Or.inr (Or.inl (by omega))⟩ (by omega)
      exact ⟨_, node?_fieldLines hwritten.1 hread (fun tabs => skip_cons_space _)
        (inside_of_lt (by omega)) rfl, later, skip_of_starts hafter⟩

theorem readsBehindKey_object {fields : List (String × Document)} (hfields : ReadsFields fields)
    (hwritten : Document.areFieldsWritten fields) : ReadsBehindKey (.object fields) := by
  intro fuel line column place n after anchors hplace hafter hfuel
  cases fields with
  | nil =>
      have hsmall : 8 ≤ fuel := hfuel
      obtain ⟨fuel, rfl⟩ : ∃ more, fuel = more + 3 := ⟨fuel - 3, by omega⟩
      exact node?_emptyObject fuel line true false anchors hplace hafter.starts
  | cons field rest =>
      rw [afterKey_object] at hfuel ⊢
      simp only [List.length_append, List.length_cons] at hfuel
      obtain ⟨fuel, rfl⟩ : ∃ more, fuel = more + 1 := ⟨fuel - 1, by omega⟩
      rw [Document.areFieldsWritten, Bool.and_eq_true] at hwritten
      have hwithin := hafter.within
      obtain ⟨later, hread⟩ := hfields fuel (line + 1) (column + 2) n after anchors
        (List.cons_ne_nil _ _) ⟨by omega, hafter.starts, Or.inr (Or.inl (by omega))⟩ (by omega)
      refine ⟨_, node?_fieldLines hwritten.1 hread (fun tabs => ?_) (inside_of_lt (by omega))
        (by simp), later, skip_of_starts hafter.starts⟩
      rw [List.cons_append, List.append_assoc, skip_cons_break (by decide), skip_spaces,
        Nat.zero_add]

end Places

/-! ## Documents -/

mutual

/-- Every document that is written is read back, behind a mark and behind a key. -/
theorem reads_document : ∀ (d : Document), d.isWritten → ReadsBehindMark d ∧ ReadsBehindKey d
  | .scalar s, h => ⟨readsBehindMark_scalar h, readsBehindKey_scalar h⟩
  | .list items, h =>
    ⟨readsBehindMark_list (reads_items items h) h, readsBehindKey_list (reads_items items h) h⟩
  | .object fields, h =>
    ⟨readsBehindMark_object (reads_fields fields h) h,
      readsBehindKey_object (reads_fields fields h) h⟩
  | .tagged d, h => by cases h
  | .unreadable, h => by cases h

theorem reads_items : ∀ (items : List Document), Document.areWritten items → ReadsItems items
  | [], _ => fun _ _ _ _ _ _ _ hsome => absurd rfl hsome
  | d :: rest, h => by
      rw [Document.areWritten, Bool.and_eq_true] at h
      exact .cons (reads_document d h.1).1 (reads_items rest h.2) h.2

theorem reads_fields : ∀ (fields : List (String × Document)), Document.areFieldsWritten fields →
    ReadsFields fields
  | [], _ => fun _ _ _ _ _ _ hsome => absurd rfl hsome
  | (name, d) :: rest, h => by
      rw [Document.areFieldsWritten, Bool.and_eq_true] at h
      obtain ⟨hmark, hkey⟩ := reads_document d h.1
      exact .cons h.1 hmark hkey (reads_fields rest h.2) h.2

end

end Yaml

end FieldCalculus
