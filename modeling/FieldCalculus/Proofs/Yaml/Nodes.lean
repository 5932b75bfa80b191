import FieldCalculus.Proofs.Documents
import FieldCalculus.Proofs.Yaml.Key

/-!
Printed nodes are read back. What follows a container lies further to the left, or starts no
further item of it; so each container ends where it was printed to end.
-/

namespace FieldCalculus.Yaml

/-! ## Properties -/

theorem apply_none (d : Document) (anchors : List (String × Document)) :
    Properties.none.apply d anchors = (d, anchors) := rfl

theorem merge?_none : Properties.none.merge? .none = some .none := rfl

/-! ## Nodes -/

section Nodes

variable {fuel line line' place : Nat} {parent : Option Nat} {loose keys : Bool}
  {cs rest : List Cell} {s : List Char} {anchors : List (String × Document)} {d : Document}

/-- A node behind blanks that is no container in block style. -/
theorem node?_leaf (hskip : ∀ tabs, skip tabs cs = cells line' place s) (hopens : Opens s)
    (hinside : parent.all (· < place))
    (hlead : lead? fuel parent ⟨cells line' place s, anchors⟩ = some (bareLead d rest anchors))
    (hcolon : ∀ start : Cell, start.line = line' → afterColon? start rest = none) :
    node? (fuel + 1) parent loose keys line .none ⟨cs, anchors⟩ = some (d, ⟨rest, anchors⟩) := by
  have hend := hopens.stands.atEnd line' place
  have hdash := (isSign_cells (by decide) line' place s).trans hopens.dash
  have hmark := (isSign_cells (by decide) line' place s).trans hopens.mark
  obtain ⟨c, others, rfl⟩ := List.exists_cons_of_ne_nil hopens.stands.some
  have hnone := hcolon ⟨c, line', place⟩ rfl
  rw [node?]
  simp only [hskip]
  rw [cells] at hlead hend hdash hmark ⊢
  simp [hend, hdash, hmark, hinside, hlead, bareLead, hnone, apply_none, merge?_none]

/-- A list behind blanks, inside of its container or at the same column. -/
theorem node?_list {items : List Document} {p : Progress}
    (hskip : ∀ tabs, skip tabs cs = cells line' place s) (hstands : Stands s)
    (hdash : startsSign '-' s) (hinside : parent.all (· < place) || (loose && parent = some place))
    (hkeys : keys || line' != line)
    (hitems : items? fuel (!parent.all (· < place)) place ⟨cells line' place s, anchors⟩ =
      some (items, p)) :
    node? (fuel + 1) parent loose keys line .none ⟨cs, anchors⟩ = some (.list items, p) := by
  have hend := hstands.atEnd line' place
  have hsign := (isSign_cells (by decide) line' place s).trans hdash
  obtain ⟨c, others, rfl⟩ := List.exists_cons_of_ne_nil hstands.some
  rw [node?]
  simp only [hskip]
  rw [cells] at hitems hend hsign ⊢
  simp only [hend, hsign, hinside, hkeys, hitems, apply_none]
  rfl

/-- An object behind blanks that starts with a question mark. -/
theorem node?_asked {fields : List (Option String × Document)} {p : Progress}
    (hskip : ∀ tabs, skip tabs cs = cells line' place s) (hbegins : Begins s)
    (hmark : startsSign '?' s) (hinside : parent.all (· < place)) (hkeys : keys || line' != line)
    (hfields : fields? fuel place ⟨cells line' place s, anchors⟩ = some (fields, p)) :
    node? (fuel + 1) parent loose keys line .none ⟨cs, anchors⟩ = some (.ofFields fields, p) := by
  have hend := hbegins.stands.atEnd line' place
  have hdash := (isSign_cells (by decide) line' place s).trans hbegins.dash
  have hsign := (isSign_cells (by decide) line' place s).trans hmark
  obtain ⟨c, others, rfl⟩ := List.exists_cons_of_ne_nil hbegins.stands.some
  rw [node?]
  simp only [hskip]
  rw [cells] at hfields hend hdash hsign ⊢
  simp only [hend, hdash, hsign, hinside, hkeys, hfields, apply_none]
  rfl

/-- An object behind blanks that starts with a key on one line. -/
theorem node?_keyed {fields : List (Option String × Document)} {p : Progress} {key : Document}
    {colon after : List Cell} (hskip : ∀ tabs, skip tabs cs = cells line' place s)
    (hopens : Opens s) (hinside : parent.all (· < place)) (hkeys : keys || line' != line)
    (hlead : lead? fuel parent ⟨cells line' place s, anchors⟩ = some (bareLead key colon anchors))
    (hcolon : ∀ start : Cell, start.line = line' → start.column = place →
      afterColon? start colon = some after)
    (hfields : fields? fuel place ⟨cells line' place s, anchors⟩ = some (fields, p)) :
    node? (fuel + 1) parent loose keys line .none ⟨cs, anchors⟩ = some (.ofFields fields, p) := by
  have hend := hopens.stands.atEnd line' place
  have hdash := (isSign_cells (by decide) line' place s).trans hopens.dash
  have hmark := (isSign_cells (by decide) line' place s).trans hopens.mark
  obtain ⟨c, others, rfl⟩ := List.exists_cons_of_ne_nil hopens.stands.some
  have hsome := hcolon ⟨c, line', place⟩ rfl rfl
  rw [node?]
  simp only [hskip]
  rw [cells] at hlead hend hdash hmark hfields ⊢
  simp [hend, hdash, hmark, hinside, hlead, bareLead, hsome, hkeys, hfields, apply_none]

end Nodes

/-! ## Containers -/

/-- What follows a container at a column: something further to the left, or what is no item of a
list that ends there. -/
structure Outside (loose : Bool) (column n : Nat) (after : List Char) : Prop where
  within : n ≤ column
  starts : Starts after
  stops : after = [] ∨ n < column ∨ (loose ∧ startsSign '-' after = false)

theorem Outside.loosen {column n : Nat} {after : List Char} (h : Outside false column n after) :
    Outside true column n after :=
  ⟨h.within, h.starts, h.stops.imp_right fun h => h.imp_right fun h => ⟨rfl, h.2⟩⟩

section Containers

variable {fuel line later column n : Nat} {loose : Bool} {rest : List Cell} {s after : List Char}
  {anchors : List (String × Document)} {d : Document}

/-- The last item of a list. -/
theorem items?_last (hafter : Outside loose column n after) (hnode : node? fuel (some column) false
      true line .none ⟨cells line (column + 1) s, anchors⟩ = some (d, ⟨rest, anchors⟩))
    (hnext : skipAfter rest = cells later n after) :
    items? (fuel + 1) loose column ⟨cells line column ('-' :: s), anchors⟩ =
      some ([d], ⟨cells later n after, anchors⟩) := by
  have hdash : isSign '-' (cells later n after) = startsSign '-' after :=
    isSign_cells (by decide) later n after
  rw [cells_cons_of_line (by decide), items?]
  simp only [List.head?_cons, Option.map_some, Option.getD_some, List.drop_succ_cons, List.drop_zero,
    hnode, hnext, Option.bind_eq_bind, Option.bind_some]
  cases after with
  | nil => rfl
  | cons c others =>
      rw [cells] at hdash ⊢
      rcases hafter.stops with hnil | hleft | ⟨hloose, hsign⟩
      · cases hnil
      · simp [hleft]
      · rcases Nat.lt_or_eq_of_le hafter.within with hleft | rfl
        · simp [hleft]
        · simp [hdash, hsign, hloose]

/-- An item that another one follows. -/
theorem items?_cons (hbegins : Stands after) (hsign : startsSign '-' after)
    (hnode : node? fuel (some column) false true line .none ⟨cells line (column + 1) s, anchors⟩ =
      some (d, ⟨rest, anchors⟩))
    (hnext : skipAfter rest = cells later column after) :
    items? (fuel + 1) loose column ⟨cells line column ('-' :: s), anchors⟩ =
      (items? fuel loose column ⟨cells later column after, anchors⟩).map
        fun (items, p) => (d :: items, p) := by
  have hend := hbegins.atEnd later column
  have hdash := (isSign_cells (by decide) later column after).trans hsign
  obtain ⟨c, others, rfl⟩ := List.exists_cons_of_ne_nil hbegins.some
  rw [cells_cons_of_line (by decide), items?]
  rw [cells] at hend hdash hnext ⊢
  simp [hnode, hnext, hend, hdash]

/-- The last field of an object. -/
theorem fields?_last {field : Option String × Document} (hafter : Outside false column n after)
    (hfield : field? fuel column ⟨cells line column s, anchors⟩ = some (field, ⟨rest, anchors⟩))
    (hnext : skipAfter rest = cells later n after) :
    fields? (fuel + 1) column ⟨cells line column s, anchors⟩ =
      some ([field], ⟨cells later n after, anchors⟩) := by
  rw [fields?, hfield]
  simp only [hnext, Option.bind_eq_bind, Option.bind_some]
  cases after with
  | nil => rfl
  | cons c others =>
      rw [cells]
      rcases hafter.stops with hnil | hleft | ⟨hloose, -⟩
      · cases hnil
      · simp [hleft]
      · cases hloose

/-- A field that another one follows. -/
theorem fields?_cons {field : Option String × Document} (hstands : Stands after)
    (hfield : field? fuel column ⟨cells line column s, anchors⟩ = some (field, ⟨rest, anchors⟩))
    (hnext : skipAfter rest = cells later column after) :
    fields? (fuel + 1) column ⟨cells line column s, anchors⟩ =
      (fields? fuel column ⟨cells later column after, anchors⟩).map
        fun (fields, p) => (field :: fields, p) := by
  have hend := hstands.atEnd later column
  obtain ⟨c, others, rfl⟩ := List.exists_cons_of_ne_nil hstands.some
  rw [fields?, hfield]
  rw [cells] at hend hnext ⊢
  simp [hnext, hend]

/-- A field with a short key. -/
theorem field?_short {key : Scalar} {name : String} {colon : List Cell}
    (hkey : key.text? = some name) (hopens : Opens s)
    (hlead : lead? fuel (some column) ⟨cells line column s, anchors⟩ =
      some (bareLead (.scalar key) colon anchors))
    (hcolon : ∀ start : Cell, start.line = line → start.column = column →
      afterColon? start colon = some (cells line later after))
    (hnode : node? fuel (some column) true false line .none ⟨cells line later after, anchors⟩ =
      some (d, ⟨rest, anchors⟩)) :
    field? (fuel + 1) column ⟨cells line column s, anchors⟩ =
      some ((some name, d), ⟨rest, anchors⟩) := by
  have hdash := (isSign_cells (by decide) line column s).trans hopens.dash
  have hmark := (isSign_cells (by decide) line column s).trans hopens.mark
  obtain ⟨c, others, rfl⟩ := List.exists_cons_of_ne_nil hopens.stands.some
  have hsome := hcolon ⟨c, line, column⟩ rfl rfl
  rw [field?]
  rw [cells] at hdash hmark hlead ⊢
  simp [hdash, hmark, hlead, bareLead, hsome, apply_none, hnode, Document.text?, Document.bare, hkey]

/-- A field whose key stands behind a question mark. -/
theorem field?_long {key : Scalar} {name : String} {behind : List Cell}
    (hkey : key.text? = some name)
    (hnodeKey : node? fuel (some column) true true line .none ⟨cells line (column + 1) s, anchors⟩ =
      some (.scalar key, ⟨behind, anchors⟩))
    (hnext : skipAfter behind = cells later column (':' :: after)) (hafter : after.head?.all isBlank)
    (hmark : s.head?.all isBlank)
    (hnode : node? fuel (some column) true true later .none
      ⟨cells later (column + 1) after, anchors⟩ = some (d, ⟨rest, anchors⟩)) :
    field? (fuel + 1) column ⟨cells line column ('?' :: s), anchors⟩ =
      some ((some name, d), ⟨rest, anchors⟩) := by
  have hsign : isSign '?' (cells line column ('?' :: s)) = true := by
    rw [isSign_cells (by decide), startsSign, hmark]
    rfl
  have hcolon : isSign ':' (cells later column (':' :: after)) = true := by
    rw [isSign_cells (by decide), startsSign, hafter]
    rfl
  rw [cells_cons_of_line (by decide)] at hsign hnext hcolon ⊢
  rw [field?]
  simp [hsign, hnodeKey, hnext, hcolon, hnode, Document.text?, Document.bare, hkey]

end Containers

end FieldCalculus.Yaml
