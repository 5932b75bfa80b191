import FieldCalculus.Program.Document
import FieldCalculus.Proofs.Dict
import Mathlib.Data.List.Nodup

/-!
A program is read back from its document, whatever a format makes of the leaves, as long as each
leaf still stands for what it stood for and there are levels enough.
-/

namespace FieldCalculus

/-! ## Leaves -/

namespace Document

mutual

/-- The document with all its leaves replaced. -/
def mapLeaves (f : Scalar → Scalar) : Document → Document
  | .scalar s => .scalar (f s)
  | .list items => .list (mapItems f items)
  | .object fields => .object (mapFields f fields)
  | .tagged content => .tagged (mapLeaves f content)
  | .unreadable => .unreadable

def mapItems (f : Scalar → Scalar) : List Document → List Document
  | [] => []
  | d :: rest => mapLeaves f d :: mapItems f rest

def mapFields (f : Scalar → Scalar) : List (String × Document) → List (String × Document)
  | [] => []
  | (name, d) :: rest => (name, mapLeaves f d) :: mapFields f rest

end

theorem mapItems_eq (f : Scalar → Scalar) (items : List Document) :
    mapItems f items = items.map (mapLeaves f) := by
  induction items with
  | nil => rfl
  | cons d rest ih => rw [mapItems, ih, List.map_cons]

end Document

/-- Leaves stand for what they stood for: texts, truth values, and those numbers that are kept. -/
structure Scalar.Faithful (keeps : Number → Bool) (f : Scalar → Scalar) : Prop where
  text : ∀ s, (f (.text s)).text? = some s
  bool : ∀ b, (f (.bool b)).bool? = some b
  number : ∀ n, keeps n → (f (.number n)).number? = some n

/-! ## What can be read back -/

mutual

/-- Whether all numbers in a program are kept and all environments in it are in order. -/
def Expr.isKept (keeps : Number → Bool) : Expr → Bool
  | .literal v => Value.isKept keeps v
  | .var _ | .sense _ | .neighborSense _ | .selfId => true
  | .lambda _ _ body => Expr.isKept keeps body
  | .apply function args => Expr.isKept keeps function && Expr.areKept keeps args
  | .letIn _ value body => Expr.isKept keeps value && Expr.isKept keeps body
  | .branch condition thenSide elseSide =>
    Expr.isKept keeps condition && Expr.isKept keeps thenSide && Expr.isKept keeps elseSide
  | .rep init _ update => Expr.isKept keeps init && Expr.isKept keeps update
  | .nbr body => Expr.isKept keeps body
  | .neighborFold default accumulator generator _ =>
    Expr.isKept keeps default && Expr.isKept keeps accumulator && Expr.isKept keeps generator

def Expr.areKept (keeps : Number → Bool) : List Expr → Bool
  | [] => true
  | e :: rest => Expr.isKept keeps e && Expr.areKept keeps rest

/-- Whether all numbers in a value are kept and all environments in it are in order. -/
def Value.isKept (keeps : Number → Bool) : Value → Bool
  | .unit | .bool _ | .text _ | .builtin _ => true
  | .number n => keeps n
  | .tuple items => Value.areKept keeps items
  | .closure _ _ body env =>
    Expr.isKept keeps body && Value.areBoundKept keeps env &&
      env.Pairwise fun a b => compare a.1 b.1 = .lt

def Value.areKept (keeps : Number → Bool) : List Value → Bool
  | [] => true
  | v :: rest => Value.isKept keeps v && Value.areKept keeps rest

def Value.areBoundKept (keeps : Number → Bool) : List (String × Value) → Bool
  | [] => true
  | (_, v) :: rest => Value.isKept keeps v && Value.areBoundKept keeps rest

end

/-! ## Levels -/

mutual

/-- How many levels reading a program takes: one for each container that its document nests,
and in formats that wrap one more for code names and for environments. -/
def Expr.levels (r : Reading) : Expr → Nat
  | .literal v => 1 + Value.levels r v
  | .var _ | .sense _ | .neighborSense _ => 1
  | .selfId => 0
  | .lambda _ _ body => 2 + max 1 (Expr.levels r body)
  | .apply function args => 2 + max (Expr.levels r function) (1 + Expr.levelsAll r args)
  | .letIn _ value body => 2 + max (Expr.levels r value) (Expr.levels r body)
  | .branch condition thenSide elseSide =>
    2 + max (Expr.levels r condition) (max (Expr.levels r thenSide) (Expr.levels r elseSide))
  | .rep init _ update => 2 + max (Expr.levels r init) (Expr.levels r update)
  | .nbr body => 1 + Expr.levels r body
  | .neighborFold default accumulator generator _ =>
    2 + max (Expr.levels r default) (max (Expr.levels r accumulator) (Expr.levels r generator))

def Expr.levelsAll (r : Reading) : List Expr → Nat
  | [] => 0
  | e :: rest => max (Expr.levels r e) (Expr.levelsAll r rest)

/-- How many levels reading a value takes. -/
def Value.levels (r : Reading) : Value → Nat
  | .unit => 0
  | .bool _ | .number _ | .text _ => 1
  | .tuple items => 2 + Value.levelsAll r items
  | .builtin _ => 2
  | .closure _ _ body env =>
    3 + max (max 1 (Expr.levels r body)) ((if r.wraps then 2 else 1) + Value.levelsBound r env)

def Value.levelsAll (r : Reading) : List Value → Nat
  | [] => 0
  | v :: rest => max (Value.levels r v) (Value.levelsAll r rest)

def Value.levelsBound (r : Reading) : List (String × Value) → Nat
  | [] => 0
  | (_, v) :: rest => max (Value.levels r v) (Value.levelsBound r rest)

end

namespace Document

mutual

/-- How deep containers are nested in a document. -/
def nesting : Document → Nat
  | .scalar _ | .unreadable => 0
  | .list items => 1 + itemsNesting items
  | .object fields => 1 + fieldsNesting fields
  | .tagged content => nesting content

def itemsNesting : List Document → Nat
  | [] => 0
  | d :: rest => max (nesting d) (itemsNesting rest)

def fieldsNesting : List (String × Document) → Nat
  | [] => 0
  | (_, d) :: rest => max (nesting d) (fieldsNesting rest)

end

@[simp]
theorem nesting_text (s : String) : (text s).nesting = 0 := rfl

@[simp]
theorem nesting_bool (b : Bool) : (bool b).nesting = 0 := rfl

@[simp]
theorem nesting_list (items : List Document) : (list items).nesting = 1 + itemsNesting items := rfl

@[simp]
theorem nesting_object (fields : List (String × Document)) :
    (object fields).nesting = 1 + fieldsNesting fields := rfl

@[simp]
theorem fieldsNesting_nil : fieldsNesting [] = 0 := rfl

@[simp]
theorem fieldsNesting_cons (name : String) (d : Document) (rest : List (String × Document)) :
    fieldsNesting ((name, d) :: rest) = max d.nesting (fieldsNesting rest) := rfl

@[simp]
theorem nesting_choice (name : String) (d : Document) :
    (choice name d).nesting = 1 + d.nesting := by simp [choice]

@[simp]
theorem nesting_texts (l : List String) : (texts l).nesting = 1 := by
  rw [texts, nesting_list]
  induction l with
  | nil => rfl
  | cons s rest ih => rw [List.map_cons, itemsNesting, nesting_text, Nat.zero_max, ih]

end Document

section Nesting

variable {r : Reading}

-- One case for each part of the syntax, and one for each kind of list in it.
mutual

/-- In formats that wrap nothing, reading takes the levels that the document nests. -/
theorem Expr.levels_eq_nesting (hr : r.wraps = false) :
    ∀ e : Expr, e.levels r = e.document.nesting
  | .literal v => by simp [Expr.levels, Expr.document, Value.levels_eq_nesting hr v]
  | .var _ | .sense _ | .neighborSense _ => by simp [Expr.levels, Expr.document]
  | .selfId => rfl
  | .lambda _ _ body => by
      simp [Expr.levels, Expr.document, Expr.levels_eq_nesting hr body]
      omega
  | .apply function args => by
      simp [Expr.levels, Expr.document, Expr.levels_eq_nesting hr function,
        Expr.levelsAll_eq_nesting hr args]
      omega
  | .letIn _ value body => by
      simp [Expr.levels, Expr.document, Expr.levels_eq_nesting hr value,
        Expr.levels_eq_nesting hr body]
      omega
  | .branch condition thenSide elseSide => by
      simp [Expr.levels, Expr.document, Expr.levels_eq_nesting hr condition,
        Expr.levels_eq_nesting hr thenSide, Expr.levels_eq_nesting hr elseSide]
      omega
  | .rep init _ update => by
      simp [Expr.levels, Expr.document, Expr.levels_eq_nesting hr init,
        Expr.levels_eq_nesting hr update]
      omega
  | .nbr body => by simp [Expr.levels, Expr.document, Expr.levels_eq_nesting hr body]
  | .neighborFold default accumulator generator _ => by
      simp [Expr.levels, Expr.document, Expr.levels_eq_nesting hr default,
        Expr.levels_eq_nesting hr accumulator, Expr.levels_eq_nesting hr generator]
      omega

theorem Expr.levelsAll_eq_nesting (hr : r.wraps = false) :
    ∀ es : List Expr, Expr.levelsAll r es = Document.itemsNesting (Expr.documents es)
  | [] => rfl
  | e :: rest => by
      rw [Expr.levelsAll, Expr.documents, Document.itemsNesting, Expr.levels_eq_nesting hr e,
        Expr.levelsAll_eq_nesting hr rest]

theorem Value.levels_eq_nesting (hr : r.wraps = false) :
    ∀ v : Value, v.levels r = v.document.nesting
  | .unit => rfl
  | .bool _ | .number _ | .text _ => rfl
  | .tuple items => by
      simp [Value.levels, Value.document, Value.levelsAll_eq_nesting hr items]
      omega
  | .builtin _ => rfl
  | .closure _ _ body env => by
      simp [Value.levels, Value.document, hr, Expr.levels_eq_nesting hr body,
        Value.levelsBound_eq_nesting hr env]
      omega

theorem Value.levelsAll_eq_nesting (hr : r.wraps = false) :
    ∀ vs : List Value, Value.levelsAll r vs = Document.itemsNesting (Value.documents vs)
  | [] => rfl
  | v :: rest => by
      rw [Value.levelsAll, Value.documents, Document.itemsNesting, Value.levels_eq_nesting hr v,
        Value.levelsAll_eq_nesting hr rest]

theorem Value.levelsBound_eq_nesting (hr : r.wraps = false) :
    ∀ env : List (String × Value),
      Value.levelsBound r env = Document.fieldsNesting (Value.bindings env)
  | [] => rfl
  | (_, v) :: rest => by
      rw [Value.levelsBound, Value.bindings, Document.fieldsNesting, Value.levels_eq_nesting hr v,
        Value.levelsBound_eq_nesting hr rest]

end

end Nesting

theorem Builtin.ofConstructorName?_constructorName (b : Builtin) :
    ofConstructorName? b.constructorName = some b := by
  cases b <;> decide +kernel

namespace Reading

variable {r : Reading}

/-! ## Records -/

/-- A field is found by its name if no other has the name. -/
theorem field?_of_nodup {fields : List (String × Document)} {name : String} {d : Document}
    (hnodup : (fields.map Prod.fst).Nodup) (hmem : (name, d) ∈ fields) :
    Document.field? fields name = some d := by
  have hfilter : fields.filter (fun f => f.1 = name) = [(name, d)] := by
    induction fields with
    | nil => cases hmem
    | cons field rest ih =>
        rw [List.map_cons, List.nodup_cons] at hnodup
        rcases List.mem_cons.mp hmem with rfl | hrest
        · have hnone : rest.filter (fun f => f.1 = name) = [] := by
            rw [List.filter_eq_nil_iff]
            intro other hother hsame
            rw [decide_eq_true_eq] at hsame
            exact hnodup.1 (List.mem_map.mpr ⟨other, hother, hsame⟩)
          rw [List.filter_cons_of_pos (by simp), hnone]
        · have hother : field.1 ≠ name := by
            rintro rfl
            exact hnodup.1 (List.mem_map.mpr ⟨_, hrest, rfl⟩)
          rw [List.filter_cons_of_neg (by simpa using hother), ih hnodup.2 hrest]
  rw [Document.field?, hfilter]

theorem mapM_eq_some {α β : Type} {f : α → Option β} {as : List α} {bs : List β}
    (h : List.Forall₂ (fun a b => f a = some b) as bs) : as.mapM f = some bs := by
  induction h with
  | nil => rfl
  | cons hfirst _ ih =>
      rw [List.mapM_cons, hfirst, ih]
      rfl

/-- A record whose names are all different is read as its parts. -/
theorem record?_zip (names : List String) (parts : List Document) (hnodup : names.Nodup)
    (hlength : names.length = parts.length) :
    r.record? names (.object (names.zip parts)) = some parts := by
  have hkeys : ((names.zip parts).map Prod.fst).Nodup := by
    rw [List.map_fst_zip (Nat.le_of_eq hlength)]
    exact hnodup
  have hall : List.Forall₂ (fun name part =>
      Document.field? (names.zip parts) name = some part) names parts := by
    rw [List.forall₂_iff_zip]
    exact ⟨hlength, fun hmem => field?_of_nodup hkeys hmem⟩
  exact mapM_eq_some hall

/-! ## Programs and values -/

section Faithful

variable {keeps : Number → Bool} {f : Scalar → Scalar} (hf : Scalar.Faithful keeps f)

include hf

theorem text?_text (s : String) : ((Document.text s).mapLeaves f).text? = some s := hf.text s

theorem choice?_text (s : String) :
    choice? ((Document.text s).mapLeaves f) = some (s, none) := by
  change (f (.text s)).text?.map _ = _
  rw [hf.text]
  rfl

theorem code?_text {levels : Nat} (hlevels : 1 ≤ levels) (code : CodeId) :
    r.code? levels ((Document.text code.text).mapLeaves f) = some code := by
  have hsome : decide (levels = 0) = false := decide_eq_false (by omega)
  rw [code?, hsome, Bool.false_and, if_neg (by decide), text?_text hf]
  rfl

theorem texts?_texts {levels : Nat} (hlevels : 1 ≤ levels) (l : List String) :
    texts? levels ((Document.texts l).mapLeaves f) = some l := by
  have hitems : ((Document.texts l).mapLeaves f).items? =
      some (l.map fun s => (Document.text s).mapLeaves f) := by
    change some (Document.mapItems f (l.map Document.text)) = _
    rw [Document.mapItems_eq, List.map_map]
    rfl
  rw [texts?, if_neg (by omega), hitems]
  refine mapM_eq_some ?_
  rw [List.forall₂_map_left_iff, List.forall₂_same]
  exact fun s _ => text?_text hf s

end Faithful

section Choices

variable {levels : Nat}

theorem value?_tuple {content : Document} {items : List Document}
    (h : content.items? = some items) :
    r.value? (levels + 2) (.choice "Tuple" content) =
      (items.mapM (r.value? levels)).map .tuple := by
  rw [value?]
  dsimp only [choice?, Document.choice]
  rw [h]
  rfl

theorem function?_builtin {content : Document} {name : String} (h : content.text? = some name) :
    r.function? (levels + 1) (.choice "Builtin" content) = (r.builtin? content).map .builtin := by
  unfold function?
  change (if levels = 0 && content.text?.isNone then none else _) = _
  rw [h, Option.isNone_some, Bool.and_false, if_neg (by decide)]

theorem function?_closure {content code params body env : Document}
    (h : r.record? ["code", "params", "body", "env"] content = some [code, params, body, env]) :
    r.function? (levels + 2) (.choice "Closure" content) = (do
      some (.closure (← r.code? levels code) (← texts? levels params) (← r.expr? levels body)
        (← r.env? levels env))) := by
  unfold function?
  simp only [choice?, Document.choice, h]

theorem env?_fields {content : Document} {fields : List (String × Document)}
    (h : content.fields? = some fields) :
    r.env? (levels + if r.wraps then 2 else 1) content = (do
      let pairs ← fields.mapM fun (name, v) => (r.value? levels v).map fun v => (name, v)
      some (Entries.insertAll [] pairs)) := by
  unfold env?
  cases hwraps : r.wraps with
  | true =>
      rw [if_pos rfl, h]
      dsimp only
      rw [if_pos rfl]
  | false =>
      rw [if_neg (by decide), h]
      dsimp only
      rw [if_neg (by decide)]

/-- Bindings are not read without the levels that they take by themselves. -/
theorem env?_eq_none (h : levels < if r.wraps then 2 else 1) (content : Document) :
    r.env? levels content = none := by
  unfold env?
  cases hwraps : r.wraps with
  | true =>
      rw [hwraps, if_pos rfl] at h
      rcases levels with _ | levels
      · rfl
      · obtain rfl : levels = 0 := by omega
        cases content.fields? <;> rfl
  | false =>
      rw [hwraps, if_neg (by decide)] at h
      obtain rfl : levels = 0 := by omega
      rfl

theorem args?_items {content : Document} {items : List Document} (h : content.items? = some items) :
    r.args? (levels + 1) content = items.mapM (r.expr? levels) := by
  unfold args?
  rw [h]

theorem expr?_lambda {content code params body : Document}
    (h : r.record? ["code", "params", "body"] content = some [code, params, body]) :
    r.expr? (levels + 2) (.choice "Lambda" content) = (do
      some (.lambda (← r.code? levels code) (← texts? levels params) (← r.expr? levels body))) := by
  rw [expr?]
  change r.node? (levels + 1) "Lambda" content = _
  unfold node?
  simp only [h]

theorem expr?_apply {content function args : Document}
    (h : r.record? ["function", "args"] content = some [function, args]) :
    r.expr? (levels + 2) (.choice "Apply" content) = (do
      some (.apply (← r.expr? levels function) (← r.args? levels args))) := by
  rw [expr?]
  change r.node? (levels + 1) "Apply" content = _
  unfold node?
  simp only [h]

theorem expr?_letIn {content name value body : Document}
    (h : r.record? ["name", "value", "body"] content = some [name, value, body]) :
    r.expr? (levels + 2) (.choice "Let" content) = (do
      some (.letIn (← name.text?) (← r.expr? levels value) (← r.expr? levels body))) := by
  rw [expr?]
  change r.node? (levels + 1) "Let" content = _
  unfold node?
  simp only [h]

theorem expr?_branch {content condition thenSide elseSide : Document}
    (h : r.record? ["condition", "then", "otherwise"] content =
      some [condition, thenSide, elseSide]) :
    r.expr? (levels + 2) (.choice "Branch" content) = (do
      some (.branch (← r.expr? levels condition) (← r.expr? levels thenSide)
        (← r.expr? levels elseSide))) := by
  rw [expr?]
  change r.node? (levels + 1) "Branch" content = _
  unfold node?
  simp only [h]

theorem expr?_rep {content init var update : Document}
    (h : r.record? ["init", "var", "update"] content = some [init, var, update]) :
    r.expr? (levels + 2) (.choice "Rep" content) = (do
      some (.rep (← r.expr? levels init) (← var.text?) (← r.expr? levels update))) := by
  rw [expr?]
  change r.node? (levels + 1) "Rep" content = _
  unfold node?
  simp only [h]

theorem expr?_neighborFold {content default accumulator generator includeSelf : Document}
    (h : r.record? ["default", "accumulator", "generator", "include_self"] content =
      some [default, accumulator, generator, includeSelf]) :
    r.expr? (levels + 2) (.choice "NeighborFold" content) = (do
      some (.neighborFold (← r.expr? levels default) (← r.expr? levels accumulator)
        (← r.expr? levels generator) (← includeSelf.bool?))) := by
  rw [expr?]
  change r.node? (levels + 1) "NeighborFold" content = _
  unfold node?
  simp only [h]

end Choices

section Faithful

variable {keeps : Number → Bool} {f : Scalar → Scalar} (hf : Scalar.Faithful keeps f)

include hf

theorem builtin?_text (b : Builtin) :
    r.builtin? ((Document.text b.constructorName).mapLeaves f) = some b := by
  have hname : r.name? ((Document.text b.constructorName).mapLeaves f) = some b.constructorName := by
    rw [name?, choice?_text hf]
  rw [builtin?, hname]
  exact b.ofConstructorName?_constructorName

end Faithful

section Reads

variable {keeps : Number → Bool} {f : Scalar → Scalar}

-- The recursion is that of the syntax; the levels go down with it.
mutual

theorem expr?_document (hf : Scalar.Faithful keeps f) :
    ∀ {e : Expr} {levels : Nat}, e.isKept keeps → e.levels r ≤ levels →
    r.expr? levels (e.document.mapLeaves f) = some e
  | .literal v, levels, hkept, hlevels => by
      rw [Expr.levels] at hlevels
      obtain ⟨deeper, rfl⟩ := Nat.exists_eq_add_of_le' (by omega : 1 ≤ levels)
      have hvalue : r.value? deeper (v.document.mapLeaves f) = some v :=
        value?_document hf hkept (by omega)
      rw [expr?]
      change (r.value? deeper _).map Expr.literal = _
      rw [hvalue]
      rfl
  | .var name, levels, _, hlevels | .sense name, levels, _, hlevels
  | .neighborSense name, levels, _, hlevels => by
      rw [Expr.levels] at hlevels
      obtain ⟨deeper, rfl⟩ := Nat.exists_eq_add_of_le' (by omega : 1 ≤ levels)
      rw [expr?]
      change ((Document.text name).mapLeaves f).text?.map _ = _
      rw [text?_text hf]
      rfl
  | .selfId, levels, _, _ => by
      have hname := choice?_text hf "SelfId"
      unfold expr?
      change (match choice? ((Document.text "SelfId").mapLeaves f) with
        | none => _
        | some (name, none) => _
        | some (name, some content) => _) = _
      rw [hname]
      rfl
  | .lambda code params body, levels, hkept, hlevels => by
      rw [Expr.levels] at hlevels
      obtain ⟨deeper, rfl⟩ := Nat.exists_eq_add_of_le' (by omega : 2 ≤ levels)
      have hbody : r.expr? deeper (body.document.mapLeaves f) = some body :=
        expr?_document hf hkept (by omega)
      refine (expr?_lambda
        (record?_zip ["code", "params", "body"] [_, _, _] (by decide) rfl)).trans ?_
      rw [code?_text hf (by omega), texts?_texts hf (by omega), hbody]
      rfl
  | .apply function args, levels, hkept, hlevels => by
      rw [Expr.levels] at hlevels
      rw [Expr.isKept, Bool.and_eq_true] at hkept
      obtain ⟨deeper, rfl⟩ : ∃ deeper, levels = deeper + 1 + 2 := ⟨levels - 3, by omega⟩
      have hfunction : r.expr? (deeper + 1) (function.document.mapLeaves f) = some function :=
        expr?_document hf hkept.1 (by omega)
      have hargs : r.args? (deeper + 1) ((Document.list (Expr.documents args)).mapLeaves f) =
          some args :=
        (args?_items rfl).trans (exprs?_documents hf hkept.2 (by omega))
      refine (expr?_apply (record?_zip ["function", "args"] [_, _] (by decide) rfl)).trans ?_
      rw [hfunction, hargs]
      rfl
  | .letIn name value body, levels, hkept, hlevels => by
      rw [Expr.levels] at hlevels
      rw [Expr.isKept, Bool.and_eq_true] at hkept
      obtain ⟨deeper, rfl⟩ := Nat.exists_eq_add_of_le' (by omega : 2 ≤ levels)
      have hvalue : r.expr? deeper (value.document.mapLeaves f) = some value :=
        expr?_document hf hkept.1 (by omega)
      have hbody : r.expr? deeper (body.document.mapLeaves f) = some body :=
        expr?_document hf hkept.2 (by omega)
      refine (expr?_letIn
        (record?_zip ["name", "value", "body"] [_, _, _] (by decide) rfl)).trans ?_
      rw [text?_text hf, hvalue, hbody]
      rfl
  | .branch condition thenSide elseSide, levels, hkept, hlevels => by
      rw [Expr.levels] at hlevels
      rw [Expr.isKept, Bool.and_eq_true, Bool.and_eq_true] at hkept
      obtain ⟨deeper, rfl⟩ := Nat.exists_eq_add_of_le' (by omega : 2 ≤ levels)
      have hcondition : r.expr? deeper (condition.document.mapLeaves f) = some condition :=
        expr?_document hf hkept.1.1 (by omega)
      have hthen : r.expr? deeper (thenSide.document.mapLeaves f) = some thenSide :=
        expr?_document hf hkept.1.2 (by omega)
      have helse : r.expr? deeper (elseSide.document.mapLeaves f) = some elseSide :=
        expr?_document hf hkept.2 (by omega)
      refine (expr?_branch (record?_zip ["condition", "then", "otherwise"] [_, _, _] (by decide)
        rfl)).trans ?_
      rw [hcondition, hthen, helse]
      rfl
  | .rep init var update, levels, hkept, hlevels => by
      rw [Expr.levels] at hlevels
      rw [Expr.isKept, Bool.and_eq_true] at hkept
      obtain ⟨deeper, rfl⟩ := Nat.exists_eq_add_of_le' (by omega : 2 ≤ levels)
      have hinit : r.expr? deeper (init.document.mapLeaves f) = some init :=
        expr?_document hf hkept.1 (by omega)
      have hupdate : r.expr? deeper (update.document.mapLeaves f) = some update :=
        expr?_document hf hkept.2 (by omega)
      refine (expr?_rep (record?_zip ["init", "var", "update"] [_, _, _] (by decide) rfl)).trans ?_
      rw [hinit, text?_text hf, hupdate]
      rfl
  | .nbr body, levels, hkept, hlevels => by
      rw [Expr.levels] at hlevels
      obtain ⟨deeper, rfl⟩ := Nat.exists_eq_add_of_le' (by omega : 1 ≤ levels)
      have hbody : r.expr? deeper (body.document.mapLeaves f) = some body :=
        expr?_document hf hkept (by omega)
      rw [expr?]
      change (r.expr? deeper _).map Expr.nbr = _
      rw [hbody]
      rfl
  | .neighborFold default accumulator generator includeSelf, levels, hkept, hlevels => by
      rw [Expr.levels] at hlevels
      rw [Expr.isKept, Bool.and_eq_true, Bool.and_eq_true] at hkept
      obtain ⟨deeper, rfl⟩ := Nat.exists_eq_add_of_le' (by omega : 2 ≤ levels)
      have hdefault : r.expr? deeper (default.document.mapLeaves f) = some default :=
        expr?_document hf hkept.1.1 (by omega)
      have haccumulator : r.expr? deeper (accumulator.document.mapLeaves f) = some accumulator :=
        expr?_document hf hkept.1.2 (by omega)
      have hgenerator : r.expr? deeper (generator.document.mapLeaves f) = some generator :=
        expr?_document hf hkept.2 (by omega)
      have hself : ((Document.bool includeSelf).mapLeaves f).bool? = some includeSelf :=
        hf.bool includeSelf
      refine (expr?_neighborFold (record?_zip ["default", "accumulator", "generator",
        "include_self"] [_, _, _, _] (by decide) rfl)).trans ?_
      rw [hdefault, haccumulator, hgenerator, hself]
      rfl

theorem exprs?_documents (hf : Scalar.Faithful keeps f) :
    ∀ {es : List Expr} {levels : Nat}, Expr.areKept keeps es →
    Expr.levelsAll r es ≤ levels →
    (Document.mapItems f (Expr.documents es)).mapM (r.expr? levels) = some es
  | [], _, _, _ => rfl
  | e :: rest, levels, hkept, hlevels => by
      rw [Expr.areKept, Bool.and_eq_true] at hkept
      rw [Expr.levelsAll] at hlevels
      have hfirst : r.expr? levels (e.document.mapLeaves f) = some e :=
        expr?_document hf hkept.1 (by omega)
      have hrest : (Document.mapItems f (Expr.documents rest)).mapM (r.expr? levels) = some rest :=
        exprs?_documents hf hkept.2 (by omega)
      rw [Expr.documents, Document.mapItems, List.mapM_cons, hfirst, hrest]
      rfl

theorem value?_document (hf : Scalar.Faithful keeps f) :
    ∀ {v : Value} {levels : Nat}, v.isKept keeps → v.levels r ≤ levels →
    r.value? levels (v.document.mapLeaves f) = some v
  | .unit, levels, _, _ => by
      have hname := choice?_text hf "Unit"
      unfold value?
      change (match choice? ((Document.text "Unit").mapLeaves f) with
        | none => _
        | some (name, none) => _
        | some (name, some content) => _) = _
      rw [hname]
      rfl
  | .bool b, levels, _, hlevels => by
      rw [Value.levels] at hlevels
      obtain ⟨deeper, rfl⟩ := Nat.exists_eq_add_of_le' (by omega : 1 ≤ levels)
      rw [value?]
      change (f (.bool b)).bool?.map Value.bool = _
      rw [hf.bool]
      rfl
  | .number n, levels, hkept, hlevels => by
      rw [Value.levels] at hlevels
      rw [Value.isKept] at hkept
      obtain ⟨deeper, rfl⟩ := Nat.exists_eq_add_of_le' (by omega : 1 ≤ levels)
      rw [value?]
      change (f (.number n)).number?.map Value.number = _
      rw [hf.number n hkept]
      rfl
  | .text s, levels, _, hlevels => by
      rw [Value.levels] at hlevels
      obtain ⟨deeper, rfl⟩ := Nat.exists_eq_add_of_le' (by omega : 1 ≤ levels)
      rw [value?]
      change (f (.text s)).text?.map Value.text = _
      rw [hf.text]
      rfl
  | .tuple items, levels, hkept, hlevels => by
      rw [Value.levels] at hlevels
      rw [Value.isKept] at hkept
      obtain ⟨deeper, rfl⟩ := Nat.exists_eq_add_of_le' (by omega : 2 ≤ levels)
      have hitems : (Document.mapItems f (Value.documents items)).mapM (r.value? deeper) =
          some items := values?_documents hf hkept (by omega)
      refine (value?_tuple rfl).trans ?_
      rw [hitems]
      rfl
  | .builtin b, levels, _, hlevels => by
      rw [Value.levels] at hlevels
      obtain ⟨deeper, rfl⟩ := Nat.exists_eq_add_of_le' (by omega : 2 ≤ levels)
      rw [value?]
      refine (function?_builtin (text?_text hf b.constructorName)).trans ?_
      rw [builtin?_text hf]
      rfl
  | .closure code params body env, levels, hkept, hlevels => by
      rw [Value.levels] at hlevels
      simp only [Value.isKept, Bool.and_eq_true, decide_eq_true_eq] at hkept
      obtain ⟨⟨hkeptBody, hbound⟩, hordered⟩ := hkept
      obtain ⟨deeper, rfl⟩ : ∃ deeper, levels = deeper + (if r.wraps then 2 else 1) + 3 :=
        ⟨levels - 3 - (if r.wraps then 2 else 1), by omega⟩
      have hbody : r.expr? (deeper + if r.wraps then 2 else 1) (body.document.mapLeaves f) =
          some body := expr?_document hf hkeptBody (by omega)
      have henv : r.env? (deeper + if r.wraps then 2 else 1)
          ((Document.object (Value.bindings env)).mapLeaves f) = some env := by
        refine (env?_fields rfl).trans ?_
        rw [bindings?_bindings hf hbound (by omega)]
        -- Bindings in order are put back where they were.
        exact congrArg some (Entries.Ordered.insertAll_nil hordered)
      have hsome : 1 ≤ deeper + if r.wraps then 2 else 1 := by
        split <;> omega
      rw [value?]
      refine (function?_closure (record?_zip ["code", "params", "body", "env"] [_, _, _, _]
        (by decide) rfl)).trans ?_
      rw [code?_text hf hsome, texts?_texts hf hsome, hbody, henv]
      rfl

theorem values?_documents (hf : Scalar.Faithful keeps f) :
    ∀ {vs : List Value} {levels : Nat}, Value.areKept keeps vs →
    Value.levelsAll r vs ≤ levels →
    (Document.mapItems f (Value.documents vs)).mapM (r.value? levels) = some vs
  | [], _, _, _ => rfl
  | v :: rest, levels, hkept, hlevels => by
      rw [Value.areKept, Bool.and_eq_true] at hkept
      rw [Value.levelsAll] at hlevels
      have hfirst : r.value? levels (v.document.mapLeaves f) = some v :=
        value?_document hf hkept.1 (by omega)
      have hrest : (Document.mapItems f (Value.documents rest)).mapM (r.value? levels) =
          some rest := values?_documents hf hkept.2 (by omega)
      rw [Value.documents, Document.mapItems, List.mapM_cons, hfirst, hrest]
      rfl

theorem bindings?_bindings (hf : Scalar.Faithful keeps f) :
    ∀ {env : List (String × Value)} {levels : Nat},
    Value.areBoundKept keeps env → Value.levelsBound r env ≤ levels →
    ((Document.mapFields f (Value.bindings env)).mapM fun (name, v) =>
      (r.value? levels v).map fun v => (name, v)) = some env
  | [], _, _, _ => rfl
  | (name, v) :: rest, levels, hkept, hlevels => by
      rw [Value.areBoundKept, Bool.and_eq_true] at hkept
      rw [Value.levelsBound] at hlevels
      have hfirst : r.value? levels (v.document.mapLeaves f) = some v :=
        value?_document hf hkept.1 (by omega)
      have hrest : ((Document.mapFields f (Value.bindings rest)).mapM fun (name, v) =>
          (r.value? levels v).map fun v => (name, v)) = some rest :=
        bindings?_bindings hf hkept.2 (by omega)
      rw [Value.bindings, Document.mapFields, List.mapM_cons, hrest]
      dsimp only
      rw [hfirst]
      rfl

end

end Reads

/-! ## Beyond the limit -/

section Deep

variable {f : Scalar → Scalar}

-- As above, along the syntax: what is too deep is so in one of its parts.
mutual

/-- No program is read that nests deeper than the levels left. -/
theorem expr?_eq_none_of_deep : ∀ {e : Expr} {levels : Nat}, levels < e.levels r →
    r.expr? levels (e.document.mapLeaves f) = none
  | .literal v, levels, hlevels => by
      rw [Expr.levels] at hlevels
      rcases levels with _ | deeper
      · rfl
      · have hvalue : r.value? deeper (v.document.mapLeaves f) = none :=
          value?_eq_none_of_deep (by omega)
        rw [expr?]
        change (r.value? deeper _).map Expr.literal = _
        rw [hvalue]
        rfl
  | .var _, levels, hlevels | .sense _, levels, hlevels | .neighborSense _, levels, hlevels => by
      rw [Expr.levels] at hlevels
      obtain rfl : levels = 0 := by omega
      rfl
  | .selfId, levels, hlevels => absurd hlevels (Nat.not_lt_zero levels)
  | .lambda code params body, levels, hlevels => by
      rw [Expr.levels] at hlevels
      rcases levels with _ | _ | deeper
      · rfl
      · rfl
      · refine (expr?_lambda
          (record?_zip ["code", "params", "body"] [_, _, _] (by decide) rfl)).trans ?_
        rcases Nat.lt_or_ge deeper (Expr.levels r body) with hbody | _
        · have hbody : r.expr? deeper (body.document.mapLeaves f) = none :=
            expr?_eq_none_of_deep hbody
          simp [hbody]
        · obtain rfl : deeper = 0 := by omega
          simp [texts?]
  | .apply function args, levels, hlevels => by
      rw [Expr.levels] at hlevels
      rcases levels with _ | _ | deeper
      · rfl
      · rfl
      · refine (expr?_apply (record?_zip ["function", "args"] [_, _] (by decide) rfl)).trans ?_
        rcases Nat.lt_or_ge deeper (Expr.levels r function) with hfunction | _
        · have hfunction : r.expr? deeper (function.document.mapLeaves f) = none :=
            expr?_eq_none_of_deep hfunction
          simp [hfunction]
        · have hargs : r.args? deeper ((Document.list (Expr.documents args)).mapLeaves f) =
              none := by
            rcases deeper with _ | inner
            · unfold args?
              rfl
            · exact (args?_items rfl).trans (exprs?_eq_none_of_deep (by omega))
          simp [hargs]
  | .letIn name value body, levels, hlevels => by
      rw [Expr.levels] at hlevels
      rcases levels with _ | _ | deeper
      · rfl
      · rfl
      · refine (expr?_letIn
          (record?_zip ["name", "value", "body"] [_, _, _] (by decide) rfl)).trans ?_
        rcases Nat.lt_or_ge deeper (Expr.levels r value) with hvalue | _
        · have hvalue : r.expr? deeper (value.document.mapLeaves f) = none :=
            expr?_eq_none_of_deep hvalue
          simp [hvalue]
        · have hbody : r.expr? deeper (body.document.mapLeaves f) = none :=
            expr?_eq_none_of_deep (by omega)
          simp [hbody]
  | .branch condition thenSide elseSide, levels, hlevels => by
      rw [Expr.levels] at hlevels
      rcases levels with _ | _ | deeper
      · rfl
      · rfl
      · refine (expr?_branch (record?_zip ["condition", "then", "otherwise"] [_, _, _] (by decide)
          rfl)).trans ?_
        rcases Nat.lt_or_ge deeper (Expr.levels r condition) with hcondition | _
        · have hcondition : r.expr? deeper (condition.document.mapLeaves f) = none :=
            expr?_eq_none_of_deep hcondition
          simp [hcondition]
        rcases Nat.lt_or_ge deeper (Expr.levels r thenSide) with hthen | _
        · have hthen : r.expr? deeper (thenSide.document.mapLeaves f) = none :=
            expr?_eq_none_of_deep hthen
          simp [hthen]
        · have helse : r.expr? deeper (elseSide.document.mapLeaves f) = none :=
            expr?_eq_none_of_deep (by omega)
          simp [helse]
  | .rep init var update, levels, hlevels => by
      rw [Expr.levels] at hlevels
      rcases levels with _ | _ | deeper
      · rfl
      · rfl
      · refine (expr?_rep
          (record?_zip ["init", "var", "update"] [_, _, _] (by decide) rfl)).trans ?_
        rcases Nat.lt_or_ge deeper (Expr.levels r init) with hinit | _
        · have hinit : r.expr? deeper (init.document.mapLeaves f) = none :=
            expr?_eq_none_of_deep hinit
          simp [hinit]
        · have hupdate : r.expr? deeper (update.document.mapLeaves f) = none :=
            expr?_eq_none_of_deep (by omega)
          simp [hupdate]
  | .nbr body, levels, hlevels => by
      rw [Expr.levels] at hlevels
      rcases levels with _ | deeper
      · rfl
      · have hbody : r.expr? deeper (body.document.mapLeaves f) = none :=
          expr?_eq_none_of_deep (by omega)
        rw [expr?]
        change (r.expr? deeper _).map Expr.nbr = _
        rw [hbody]
        rfl
  | .neighborFold default accumulator generator includeSelf, levels, hlevels => by
      rw [Expr.levels] at hlevels
      rcases levels with _ | _ | deeper
      · rfl
      · rfl
      · refine (expr?_neighborFold (record?_zip ["default", "accumulator", "generator",
          "include_self"] [_, _, _, _] (by decide) rfl)).trans ?_
        rcases Nat.lt_or_ge deeper (Expr.levels r default) with hdefault | _
        · have hdefault : r.expr? deeper (default.document.mapLeaves f) = none :=
            expr?_eq_none_of_deep hdefault
          simp [hdefault]
        rcases Nat.lt_or_ge deeper (Expr.levels r accumulator) with haccumulator | _
        · have haccumulator : r.expr? deeper (accumulator.document.mapLeaves f) = none :=
            expr?_eq_none_of_deep haccumulator
          simp [haccumulator]
        · have hgenerator : r.expr? deeper (generator.document.mapLeaves f) = none :=
            expr?_eq_none_of_deep (by omega)
          simp [hgenerator]

theorem exprs?_eq_none_of_deep : ∀ {es : List Expr} {levels : Nat},
    levels < Expr.levelsAll r es →
    (Document.mapItems f (Expr.documents es)).mapM (r.expr? levels) = none
  | [], levels, hlevels => absurd hlevels (Nat.not_lt_zero levels)
  | e :: rest, levels, hlevels => by
      rw [Expr.levelsAll] at hlevels
      rw [Expr.documents, Document.mapItems, List.mapM_cons]
      rcases Nat.lt_or_ge levels (Expr.levels r e) with hfirst | _
      · have hfirst : r.expr? levels (e.document.mapLeaves f) = none :=
          expr?_eq_none_of_deep hfirst
        simp [hfirst]
      · have hrest : (Document.mapItems f (Expr.documents rest)).mapM (r.expr? levels) = none :=
          exprs?_eq_none_of_deep (by omega)
        simp [hrest]

/-- No value is read that nests deeper than the levels left. -/
theorem value?_eq_none_of_deep : ∀ {v : Value} {levels : Nat}, levels < v.levels r →
    r.value? levels (v.document.mapLeaves f) = none
  | .unit, levels, hlevels => absurd hlevels (Nat.not_lt_zero levels)
  | .bool _, levels, hlevels | .number _, levels, hlevels | .text _, levels, hlevels => by
      rw [Value.levels] at hlevels
      obtain rfl : levels = 0 := by omega
      rfl
  | .tuple items, levels, hlevels => by
      rw [Value.levels] at hlevels
      rcases levels with _ | _ | deeper
      · rfl
      · rfl
      · have hitems : (Document.mapItems f (Value.documents items)).mapM (r.value? deeper) =
            none := values?_eq_none_of_deep (by omega)
        refine (value?_tuple rfl).trans ?_
        rw [hitems]
        rfl
  | .builtin _, levels, hlevels => by
      rw [Value.levels] at hlevels
      rcases levels with _ | _ | deeper
      · rfl
      · rfl
      · omega
  | .closure code params body env, levels, hlevels => by
      rw [Value.levels] at hlevels
      rcases levels with _ | _ | _ | deeper
      · rfl
      · rfl
      · rfl
      · rw [value?]
        refine (function?_closure (record?_zip ["code", "params", "body", "env"] [_, _, _, _]
          (by decide) rfl)).trans ?_
        rcases Nat.lt_or_ge deeper (Expr.levels r body) with hbody | _
        · have hbody : r.expr? deeper (body.document.mapLeaves f) = none :=
            expr?_eq_none_of_deep hbody
          simp [hbody]
        rcases Nat.lt_or_ge deeper (if r.wraps then 2 else 1) with hshort | _
        · simp [env?_eq_none hshort]
        · obtain ⟨inner, rfl⟩ : ∃ inner, deeper = inner + if r.wraps then 2 else 1 :=
            ⟨deeper - if r.wraps then 2 else 1, by omega⟩
          have hbound : r.env? (inner + if r.wraps then 2 else 1)
              ((Document.object (Value.bindings env)).mapLeaves f) = none := by
            refine (env?_fields rfl).trans ?_
            have hinner : inner < Value.levelsBound r env := by
              have hpositive : 1 ≤ if r.wraps then 2 else 1 := by split <;> decide
              omega
            rw [bindings?_eq_none_of_deep hinner]
            rfl
          simp [hbound]

theorem values?_eq_none_of_deep : ∀ {vs : List Value} {levels : Nat},
    levels < Value.levelsAll r vs →
    (Document.mapItems f (Value.documents vs)).mapM (r.value? levels) = none
  | [], levels, hlevels => absurd hlevels (Nat.not_lt_zero levels)
  | v :: rest, levels, hlevels => by
      rw [Value.levelsAll] at hlevels
      rw [Value.documents, Document.mapItems, List.mapM_cons]
      rcases Nat.lt_or_ge levels (Value.levels r v) with hfirst | _
      · have hfirst : r.value? levels (v.document.mapLeaves f) = none :=
          value?_eq_none_of_deep hfirst
        simp [hfirst]
      · have hrest : (Document.mapItems f (Value.documents rest)).mapM (r.value? levels) = none :=
          values?_eq_none_of_deep (by omega)
        simp [hrest]

theorem bindings?_eq_none_of_deep : ∀ {env : List (String × Value)} {levels : Nat},
    levels < Value.levelsBound r env →
    ((Document.mapFields f (Value.bindings env)).mapM fun (name, v) =>
      (r.value? levels v).map fun v => (name, v)) = none
  | [], levels, hlevels => absurd hlevels (Nat.not_lt_zero levels)
  | (name, v) :: rest, levels, hlevels => by
      rw [Value.levelsBound] at hlevels
      rw [Value.bindings, Document.mapFields, List.mapM_cons]
      rcases Nat.lt_or_ge levels (Value.levels r v) with hfirst | _
      · have hfirst : r.value? levels (v.document.mapLeaves f) = none :=
          value?_eq_none_of_deep hfirst
        simp [hfirst]
      · have hrest : ((Document.mapFields f (Value.bindings rest)).mapM fun (name, v) =>
            (r.value? levels v).map fun v => (name, v)) = none :=
          bindings?_eq_none_of_deep (by omega)
        simp [hrest]

end

end Deep

end Reading

end FieldCalculus
