import FieldCalculus.Program.Format
import FieldCalculus.Proofs.Yaml.Printable

/-!
Programs are read back from YAML. The document of a program is printed and read as the same
document with other leaves, and these stand for what the program's own leaves stood for.
-/

namespace FieldCalculus

namespace Yaml

/-! ## Streams -/

section Streams

variable {s : List Char}

theorem ne_of_isPrintable {c d : Char} (hc : isPrintable c) (hd : isPrintable d = false) : c ≠ d := by
  rintro rfl
  rw [hc] at hd
  cases hd

theorem normalized_of_printable (h : Printable s) : normalized s = s := by
  induction s with
  | nil => rfl
  | cons c rest ih =>
      obtain ⟨hc, hrest⟩ := List.forall_mem_cons.mp h
      have hreturn : c ≠ '\r' := ne_of_isPrintable hc (by decide)
      have hnext : c ≠ '\x85' := ne_of_isPrintable hc (by decide)
      rw [normalized, ih hrest]
      · simp [hreturn, hnext]
      · rintro others rfl
        exact absurd rfl hreturn

theorem isAllowed_of_printable (h : Printable s) : s.all isAllowed := by
  rw [List.all_eq_true]
  intro c hc
  rw [isAllowed, h c hc]
  rfl

/-- A document that starts with a key is not preceded by directives. -/
theorem directives?_begins (h : Begins s) (hpercent : s.head? ≠ some '%') (fuel : Nat) :
    directives? (fuel + 1) false (cells 0 0 s) = some (false, cells 0 0 s) := by
  rw [directives?, skip_of_starts h.starts]
  obtain ⟨c, rest, rfl⟩ := List.exists_cons_of_ne_nil h.stands.some
  have hc : c ≠ '%' := fun hc => hpercent (congrArg some hc)
  simp [cells, hc]

/-- How a document is read that has no directives and no markers. -/
theorem document?_of_node {d : Document} {rest : List Cell} (hprintable : Printable s)
    (hbegins : Begins s) (hpercent : s.head? ≠ some '%')
    (hnode : node? (4 * ((cells 0 0 s).length + 1)) none false true 0 .none ⟨cells 0 0 s, []⟩ =
      some (d, ⟨rest, []⟩)) (hrest : skipAfter rest = []) :
    document? (String.ofList s) = some (some d) := by
  have hover : isOver ((cells 0 0 s).length + 1) rest := by
    rw [isOver, hrest]
    rfl
  have hmarker : isMarker '-' (cells 0 0 s) = false :=
    isMarker_of_startsMarker hbegins.stands.dashes
  have hdirectives := directives?_begins hbegins hpercent (cells 0 0 s).length
  have hallowed := isAllowed_of_printable hprintable
  have hnormalized := normalized_of_printable hprintable
  obtain ⟨c, others, rfl⟩ := List.exists_cons_of_ne_nil hbegins.stands.some
  have hc : c ≠ '\ufeff' := ne_of_isPrintable (hprintable c List.mem_cons_self) (by decide)
  unfold document?
  rw [String.toList_ofList]
  split
  · case h_1 heq => exact absurd (List.cons.inj heq).1 hc
  · simp only [hallowed, hnormalized, hdirectives]
    generalize (cells 0 0 (c :: others)).length + 1 = size at hnode hover ⊢
    rw [cells] at hnode hmarker ⊢
    simp [hmarker, hnode, hover]

/-- No key starts with a sign for directives. -/
theorem keyLead_head (column : Nat) (name : String) : (keyLead column name).head? ≠ some '%' := by
  cases hshort : isShortKey name with
  | false =>
      rw [keyLead_long hshort]
      simp
  | true =>
      rw [keyLead_short hshort]
      rcases keyText_cases hshort column with ⟨hstyle, hkey⟩ | ⟨quote, body, hquote, -, hkey, -⟩
      · obtain ⟨c, rest, hname, -, hindicator, -⟩ := (plainText_of_style hstyle).exists_cons
        rw [hkey, hname]
        rintro ⟨⟩
        cases hindicator
      · rw [hkey]
        rcases hquote with rfl | rfl <;> simp

/-- A printed object is read back. -/
theorem document?_render {fields : List (String × Document)} (hsome : fields ≠ [])
    (h : Document.areFieldsWritten fields) : document? (render (.object fields)) =
      some (some ((Document.object fields).mapLeaves leaf)) := by
  obtain ⟨⟨name, d⟩, rest, rfl⟩ := List.exists_cons_of_ne_nil hsome
  have hprintable := printable_fields _ h 0
  have hreads := reads_fields _ h
  rw [Document.areFieldsWritten, Bool.and_eq_true] at h
  have hbegins := fieldLines_begins 0 name h.1 rest []
  have hpercent : (fieldLines 0 ((name, d) :: rest) ++ []).head? ≠ some '%' := by
    obtain ⟨tail, htail, -⟩ := fieldLines_front 0 name h.1 rest []
    have hlead := keyLead_head 0 name
    obtain ⟨c, others, hcons⟩ := List.exists_cons_of_length_pos (length_keyLead_pos 0 name)
    rw [hcons] at hlead
    rw [htail, hcons]
    exact hlead
  obtain ⟨later, hread⟩ := hreads (4 * (fieldLines 0 ((name, d) :: rest)).length + 3) 0 0 0 [] []
    hsome ⟨Nat.le_refl 0, nofun, Or.inl rfl⟩ (by omega)
  have hnode : node? (4 * (fieldLines 0 ((name, d) :: rest)).length + 3 + 1) none false true 0 .none
      ⟨cells 0 0 (fieldLines 0 ((name, d) :: rest) ++ []), []⟩ = _ :=
    node?_fieldLines h.1 hread (fun _ => rfl) rfl rfl
  rw [List.append_nil] at hbegins hpercent hnode
  have hsize : 4 * ((cells 0 0 (fieldLines 0 ((name, d) :: rest))).length + 1) =
      4 * (fieldLines 0 ((name, d) :: rest)).length + 3 + 1 := by
    rw [length_cells]
    rfl
  rw [← hsize] at hnode
  exact document?_of_node hprintable hbegins hpercent hnode rfl

end Streams

/-! ## Programs -/

/-- Leaves stand for what they stood for, numbers if there are such numbers. -/
theorem leaf_faithful : Scalar.Faithful (fun n => !n.isNaN) leaf where
  text := text?_leaf
  bool b := by cases b <;> rfl
  number n hnumber := by
    rw [Bool.not_eq_true'] at hnumber
    exact Number.number?_text hnumber

theorem isWritten_texts (l : List String) : (Document.texts l).isWritten := by
  rw [Document.texts, Document.isWritten]
  induction l with
  | nil => rfl
  | cons s rest ih => rw [List.map_cons, Document.areWritten, ih]; rfl

theorem isWritten_choice {name : String} {d : Document} (h : d.isWritten) :
    (Document.choice name d).isWritten := by
  rw [Document.choice, Document.isWritten, Document.areFieldsWritten, h]
  rfl

mutual

theorem isWritten_expr : ∀ e : Expr, e.document.isWritten
  | .literal v => isWritten_choice (isWritten_value v)
  | .var _ | .sense _ | .neighborSense _ => isWritten_choice rfl
  | .selfId => rfl
  | .lambda code params body => by
      refine isWritten_choice ?_
      simp [isWritten_texts, isWritten_expr body]
  | .apply function args => by
      refine isWritten_choice ?_
      simp [isWritten_expr function, isWritten_exprs args]
  | .letIn name value body => by
      refine isWritten_choice ?_
      simp [isWritten_expr value, isWritten_expr body]
  | .branch condition thenSide elseSide => by
      refine isWritten_choice ?_
      simp [isWritten_expr condition, isWritten_expr thenSide, isWritten_expr elseSide]
  | .rep init var update => by
      refine isWritten_choice ?_
      simp [isWritten_expr init, isWritten_expr update]
  | .nbr body => isWritten_choice (isWritten_expr body)
  | .neighborFold default accumulator generator includeSelf => by
      refine isWritten_choice ?_
      simp [isWritten_expr default, isWritten_expr accumulator, isWritten_expr generator]

theorem isWritten_exprs : ∀ es : List Expr, Document.areWritten (Expr.documents es)
  | [] => rfl
  | e :: rest => by simp [Expr.documents, isWritten_expr e, isWritten_exprs rest]

theorem isWritten_value : ∀ v : Value, v.document.isWritten
  | .unit => rfl
  | .bool _ | .number _ | .text _ => isWritten_choice rfl
  | .tuple items => isWritten_choice (isWritten_values items)
  | .builtin _ => isWritten_choice (isWritten_choice rfl)
  | .closure code params body env => by
      refine isWritten_choice (isWritten_choice ?_)
      simp [isWritten_texts, isWritten_expr body, isWritten_bindings env]

theorem isWritten_values : ∀ vs : List Value, Document.areWritten (Value.documents vs)
  | [] => rfl
  | v :: rest => by simp [Value.documents, isWritten_value v, isWritten_values rest]

theorem isWritten_bindings : ∀ env : List (String × Value),
    Document.areFieldsWritten (Value.bindings env)
  | [] => rfl
  | (name, v) :: rest => by simp [Value.bindings, isWritten_value v, isWritten_bindings rest]

end

/-- The document of a program is a name or an object. -/
theorem document_cases (e : Expr) : e = .selfId ∨ ∃ fields, fields ≠ [] ∧
    e.document = .object fields := by
  cases e with
  | selfId => exact Or.inl rfl
  | _ => exact Or.inr ⟨_, List.cons_ne_nil _ _, rfl⟩

/-- The one program that is a name alone. -/
theorem document?_selfId :
    document? (render Expr.selfId.document) = some (some (.scalar (.word "SelfId"))) := by
  have hprinted : render Expr.selfId.document = String.ofList "SelfId\n".toList := by decide
  have hplain : PlainText "SelfId".toList := ⟨by decide, by decide, by decide⟩
  have hopens : Opens ("SelfId".toList ++ ['\n']) := hplain.opens (by decide) (by decide)
  have hnode : node? 32 none false true 0 .none ⟨cells 0 0 "SelfId\n".toList, []⟩ =
      some (.scalar (.word "SelfId"), ⟨[], []⟩) :=
    node?_leaf (fun _ => skip_of_starts hopens.starts) hopens rfl rfl fun _ _ => rfl
  rw [hprinted]
  exact document?_of_node (by decide) hopens.toBegins (by decide) hnode rfl

end Yaml

namespace ProgramFormat

/-- What is read from a printed program is its document with other leaves. -/
theorem document?_render_yaml (e : Expr) :
    yaml.document? (yaml.render e) = some (e.document.mapLeaves Yaml.leaf) := by
  rcases Yaml.document_cases e with rfl | ⟨fields, hsome, hfields⟩
  · have hleaf : Yaml.leaf (.text "SelfId") = .word "SelfId" := by decide +kernel
    rw [document?, render, Yaml.document?_selfId, Expr.document, Document.text, Document.mapLeaves,
      hleaf]
    rfl
  · have hwritten := Yaml.isWritten_expr e
    rw [hfields, Document.isWritten] at hwritten
    rw [document?, render, hfields, Yaml.document?_render hsome hwritten]
    rfl

/-- A program that nests deeper than the reader goes is printed and not read. -/
theorem parse?_render_yaml_of_deep {e : Expr} (h : yaml.reading.levels < e.levels yaml.reading) :
    yaml.parse? (yaml.render e) = none := by
  rw [parse?, document?_render_yaml]
  exact Reading.expr?_eq_none_of_deep h

/-- Programs are read back from YAML: whatever their texts, however they are nested up to the
limit of the reader, and with all numbers but those that are no numbers. -/
theorem yaml_round_trip {e : Expr} (hnumbers : e.isKept fun n => !n.isNaN)
    (hlevels : e.levels yaml.reading ≤ yaml.reading.levels) :
    yaml.parse? (yaml.render e) = some e := by
  rw [parse?, document?_render_yaml]
  exact Reading.expr?_document Yaml.leaf_faithful hnumbers hlevels

/-- A program whose texts take every style: names that look like something else, several lines,
characters that have to be escaped. -/
def everyStyle : Expr :=
  .letIn "null" (.literal (.tuple
      [.number .infinity, .number Number.infinity.neg, .number .negativeZero, .text "plain",
        .text "- # it's", .text "two\n lines\n\n", .text "\x00\u2028 \u00e9", .text "", .tuple []]))
    (.apply (.literal (.closure ⟨"true"⟩ ["1e3", "key: "] (.var "null")
        [("several\nlines", .bool true), ("x", .unit)]))
      [])

theorem everyStyle_round_trip : everyStyle.isKept (fun n => !n.isNaN) ∧
    everyStyle.levels yaml.reading ≤ yaml.reading.levels ∧
      yaml.parse? (yaml.render everyStyle) = some everyStyle :=
  ⟨by decide, by decide, yaml_round_trip (by decide) (by decide)⟩

end ProgramFormat

end FieldCalculus
