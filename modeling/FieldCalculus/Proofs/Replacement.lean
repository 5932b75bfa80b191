import FieldCalculus.Proofs.Documents

/-!
Programs with other numbers. Replacing the numbers of a program replaces leaves of its document and
nothing else: environments stay in order, and what is nested stays nested.
-/

namespace FieldCalculus

mutual

/-- The program with all its numbers replaced, those in values and environments included. -/
def Expr.mapNumbers (g : Number → Number) : Expr → Expr
  | .literal v => .literal (Value.mapNumbers g v)
  | .var name => .var name
  | .sense name => .sense name
  | .neighborSense name => .neighborSense name
  | .selfId => .selfId
  | .lambda code params body => .lambda code params (Expr.mapNumbers g body)
  | .apply function args => .apply (Expr.mapNumbers g function) (Expr.mapAllNumbers g args)
  | .letIn name value body => .letIn name (Expr.mapNumbers g value) (Expr.mapNumbers g body)
  | .branch condition thenSide elseSide =>
    .branch (Expr.mapNumbers g condition) (Expr.mapNumbers g thenSide) (Expr.mapNumbers g elseSide)
  | .rep init var update => .rep (Expr.mapNumbers g init) var (Expr.mapNumbers g update)
  | .nbr body => .nbr (Expr.mapNumbers g body)
  | .neighborFold default accumulator generator includeSelf =>
    .neighborFold (Expr.mapNumbers g default) (Expr.mapNumbers g accumulator)
      (Expr.mapNumbers g generator) includeSelf

def Expr.mapAllNumbers (g : Number → Number) : List Expr → List Expr
  | [] => []
  | e :: rest => Expr.mapNumbers g e :: Expr.mapAllNumbers g rest

/-- The value with all its numbers replaced. -/
def Value.mapNumbers (g : Number → Number) : Value → Value
  | .unit => .unit
  | .bool b => .bool b
  | .number n => .number (g n)
  | .text s => .text s
  | .tuple items => .tuple (Value.mapAllNumbers g items)
  | .builtin b => .builtin b
  | .closure code params body env =>
    .closure code params (Expr.mapNumbers g body) (Value.mapBoundNumbers g env)

def Value.mapAllNumbers (g : Number → Number) : List Value → List Value
  | [] => []
  | v :: rest => Value.mapNumbers g v :: Value.mapAllNumbers g rest

def Value.mapBoundNumbers (g : Number → Number) : List (String × Value) → List (String × Value)
  | [] => []
  | (name, v) :: rest => (name, Value.mapNumbers g v) :: Value.mapBoundNumbers g rest

end

section Replacement

variable {keeps others : Number → Bool} {g : Number → Number} {f : Scalar → Scalar}

/-! ## Which numbers are left as they are -/

mutual

/-- A program is left as it is if and only if all its numbers are. -/
theorem Expr.mapNumbers_eq_iff : ∀ {e : Expr}, e.isKept keeps →
    (e.mapNumbers g = e ↔ e.isKept fun n => g n = n)
  | .literal v, h => by
      rw [Expr.isKept] at h
      simp [Expr.mapNumbers, Expr.isKept, Value.mapNumbers_eq_iff h]
  | .var _, _ | .sense _, _ | .neighborSense _, _ | .selfId, _ => by
      simp [Expr.mapNumbers, Expr.isKept]
  | .lambda code params body, h => by
      rw [Expr.isKept] at h
      simp [Expr.mapNumbers, Expr.isKept, Expr.mapNumbers_eq_iff h]
  | .apply function args, h => by
      rw [Expr.isKept, Bool.and_eq_true] at h
      simp [Expr.mapNumbers, Expr.isKept, Expr.mapNumbers_eq_iff h.1, Expr.mapAllNumbers_eq_iff h.2]
  | .letIn name value body, h => by
      rw [Expr.isKept, Bool.and_eq_true] at h
      simp [Expr.mapNumbers, Expr.isKept, Expr.mapNumbers_eq_iff h.1, Expr.mapNumbers_eq_iff h.2]
  | .branch condition thenSide elseSide, h => by
      rw [Expr.isKept, Bool.and_eq_true, Bool.and_eq_true] at h
      simp [Expr.mapNumbers, Expr.isKept, Expr.mapNumbers_eq_iff h.1.1,
        Expr.mapNumbers_eq_iff h.1.2, Expr.mapNumbers_eq_iff h.2, and_assoc]
  | .rep init var update, h => by
      rw [Expr.isKept, Bool.and_eq_true] at h
      simp [Expr.mapNumbers, Expr.isKept, Expr.mapNumbers_eq_iff h.1, Expr.mapNumbers_eq_iff h.2]
  | .nbr body, h => by
      rw [Expr.isKept] at h
      simp [Expr.mapNumbers, Expr.isKept, Expr.mapNumbers_eq_iff h]
  | .neighborFold default accumulator generator includeSelf, h => by
      rw [Expr.isKept, Bool.and_eq_true, Bool.and_eq_true] at h
      simp [Expr.mapNumbers, Expr.isKept, Expr.mapNumbers_eq_iff h.1.1,
        Expr.mapNumbers_eq_iff h.1.2, Expr.mapNumbers_eq_iff h.2, and_assoc]

theorem Expr.mapAllNumbers_eq_iff : ∀ {es : List Expr}, Expr.areKept keeps es →
    (Expr.mapAllNumbers g es = es ↔ Expr.areKept (fun n => g n = n) es)
  | [], _ => by simp [Expr.mapAllNumbers, Expr.areKept]
  | e :: rest, h => by
      rw [Expr.areKept, Bool.and_eq_true] at h
      simp [Expr.mapAllNumbers, Expr.areKept, Expr.mapNumbers_eq_iff h.1,
        Expr.mapAllNumbers_eq_iff h.2]

theorem Value.mapNumbers_eq_iff : ∀ {v : Value}, v.isKept keeps →
    (v.mapNumbers g = v ↔ v.isKept fun n => g n = n)
  | .unit, _ | .bool _, _ | .text _, _ | .builtin _, _ => by simp [Value.mapNumbers, Value.isKept]
  | .number n, _ => by simp [Value.mapNumbers, Value.isKept]
  | .tuple items, h => by
      rw [Value.isKept] at h
      simp [Value.mapNumbers, Value.isKept, Value.mapAllNumbers_eq_iff h]
  | .closure code params body env, h => by
      rw [Value.isKept, Bool.and_eq_true, Bool.and_eq_true] at h
      simp [Value.mapNumbers, Value.isKept, Expr.mapNumbers_eq_iff h.1.1,
        Value.mapBoundNumbers_eq_iff h.1.2, of_decide_eq_true h.2]

theorem Value.mapAllNumbers_eq_iff : ∀ {vs : List Value}, Value.areKept keeps vs →
    (Value.mapAllNumbers g vs = vs ↔ Value.areKept (fun n => g n = n) vs)
  | [], _ => by simp [Value.mapAllNumbers, Value.areKept]
  | v :: rest, h => by
      rw [Value.areKept, Bool.and_eq_true] at h
      simp [Value.mapAllNumbers, Value.areKept, Value.mapNumbers_eq_iff h.1,
        Value.mapAllNumbers_eq_iff h.2]

theorem Value.mapBoundNumbers_eq_iff : ∀ {env : List (String × Value)},
    Value.areBoundKept keeps env →
      (Value.mapBoundNumbers g env = env ↔ Value.areBoundKept (fun n => g n = n) env)
  | [], _ => by simp [Value.mapBoundNumbers, Value.areBoundKept]
  | (name, v) :: rest, h => by
      rw [Value.areBoundKept, Bool.and_eq_true] at h
      simp [Value.mapBoundNumbers, Value.areBoundKept, Value.mapNumbers_eq_iff h.1,
        Value.mapBoundNumbers_eq_iff h.2]

end

mutual

theorem Expr.mapNumbers_id : ∀ e : Expr, e.mapNumbers id = e
  | .literal v => by rw [Expr.mapNumbers, Value.mapNumbers_id v]
  | .var _ | .sense _ | .neighborSense _ | .selfId => rfl
  | .lambda _ _ body => by rw [Expr.mapNumbers, Expr.mapNumbers_id body]
  | .apply function args => by
      rw [Expr.mapNumbers, Expr.mapNumbers_id function, Expr.mapAllNumbers_id args]
  | .letIn _ value body => by
      rw [Expr.mapNumbers, Expr.mapNumbers_id value, Expr.mapNumbers_id body]
  | .branch condition thenSide elseSide => by
      rw [Expr.mapNumbers, Expr.mapNumbers_id condition, Expr.mapNumbers_id thenSide,
        Expr.mapNumbers_id elseSide]
  | .rep init _ update => by
      rw [Expr.mapNumbers, Expr.mapNumbers_id init, Expr.mapNumbers_id update]
  | .nbr body => by rw [Expr.mapNumbers, Expr.mapNumbers_id body]
  | .neighborFold default accumulator generator _ => by
      rw [Expr.mapNumbers, Expr.mapNumbers_id default, Expr.mapNumbers_id accumulator,
        Expr.mapNumbers_id generator]

theorem Expr.mapAllNumbers_id : ∀ es : List Expr, Expr.mapAllNumbers id es = es
  | [] => rfl
  | e :: rest => by rw [Expr.mapAllNumbers, Expr.mapNumbers_id e, Expr.mapAllNumbers_id rest]

theorem Value.mapNumbers_id : ∀ v : Value, v.mapNumbers id = v
  | .unit | .bool _ | .number _ | .text _ | .builtin _ => rfl
  | .tuple items => by rw [Value.mapNumbers, Value.mapAllNumbers_id items]
  | .closure _ _ body env => by
      rw [Value.mapNumbers, Expr.mapNumbers_id body, Value.mapBoundNumbers_id env]

theorem Value.mapAllNumbers_id : ∀ vs : List Value, Value.mapAllNumbers id vs = vs
  | [] => rfl
  | v :: rest => by rw [Value.mapAllNumbers, Value.mapNumbers_id v, Value.mapAllNumbers_id rest]

theorem Value.mapBoundNumbers_id :
    ∀ env : List (String × Value), Value.mapBoundNumbers id env = env
  | [] => rfl
  | (_, v) :: rest => by
      rw [Value.mapBoundNumbers, Value.mapNumbers_id v, Value.mapBoundNumbers_id rest]

end

/-! ## What is kept of the new numbers -/

theorem Value.map_fst_mapBoundNumbers : ∀ env : List (String × Value),
    (Value.mapBoundNumbers g env).map Prod.fst = env.map Prod.fst
  | [] => rfl
  | (name, _) :: rest => congrArg (name :: ·) (map_fst_mapBoundNumbers rest)

/-- Environments stay in order. -/
theorem Value.pairwise_mapBoundNumbers {env : List (String × Value)}
    (h : env.Pairwise fun a b => compare a.1 b.1 = .lt) :
    (Value.mapBoundNumbers g env).Pairwise fun a b => compare a.1 b.1 = .lt := by
  have hnames : (env.map Prod.fst).Pairwise fun a b => compare a b = .lt :=
    List.pairwise_map.mpr h
  rw [← map_fst_mapBoundNumbers (g := g)] at hnames
  exact List.pairwise_map.mp hnames

mutual

/-- The new numbers are kept if they are so for each number that was kept. -/
theorem Expr.isKept_mapNumbers (hg : ∀ n, keeps n → others (g n)) :
    ∀ {e : Expr}, e.isKept keeps → (e.mapNumbers g).isKept others
  | .literal v, h => Value.isKept_mapNumbers (v := v) hg h
  | .var _, _ | .sense _, _ | .neighborSense _, _ | .selfId, _ => rfl
  | .lambda _ _ body, h => Expr.isKept_mapNumbers (e := body) hg h
  | .apply function args, h => by
      rw [Expr.isKept, Bool.and_eq_true] at h
      simp [Expr.mapNumbers, Expr.isKept, Expr.isKept_mapNumbers hg h.1,
        Expr.areKept_mapAllNumbers hg h.2]
  | .letIn _ value body, h => by
      rw [Expr.isKept, Bool.and_eq_true] at h
      simp [Expr.mapNumbers, Expr.isKept, Expr.isKept_mapNumbers hg h.1,
        Expr.isKept_mapNumbers hg h.2]
  | .branch condition thenSide elseSide, h => by
      rw [Expr.isKept, Bool.and_eq_true, Bool.and_eq_true] at h
      simp [Expr.mapNumbers, Expr.isKept, Expr.isKept_mapNumbers hg h.1.1,
        Expr.isKept_mapNumbers hg h.1.2, Expr.isKept_mapNumbers hg h.2]
  | .rep init _ update, h => by
      rw [Expr.isKept, Bool.and_eq_true] at h
      simp [Expr.mapNumbers, Expr.isKept, Expr.isKept_mapNumbers hg h.1,
        Expr.isKept_mapNumbers hg h.2]
  | .nbr body, h => Expr.isKept_mapNumbers (e := body) hg h
  | .neighborFold default accumulator generator _, h => by
      rw [Expr.isKept, Bool.and_eq_true, Bool.and_eq_true] at h
      simp [Expr.mapNumbers, Expr.isKept, Expr.isKept_mapNumbers hg h.1.1,
        Expr.isKept_mapNumbers hg h.1.2, Expr.isKept_mapNumbers hg h.2]

theorem Expr.areKept_mapAllNumbers (hg : ∀ n, keeps n → others (g n)) :
    ∀ {es : List Expr}, Expr.areKept keeps es → Expr.areKept others (Expr.mapAllNumbers g es)
  | [], _ => rfl
  | e :: rest, h => by
      rw [Expr.areKept, Bool.and_eq_true] at h
      simp [Expr.mapAllNumbers, Expr.areKept, Expr.isKept_mapNumbers hg h.1,
        Expr.areKept_mapAllNumbers hg h.2]

theorem Value.isKept_mapNumbers (hg : ∀ n, keeps n → others (g n)) :
    ∀ {v : Value}, v.isKept keeps → (v.mapNumbers g).isKept others
  | .unit, _ | .bool _, _ | .text _, _ | .builtin _, _ => rfl
  | .number n, h => hg n h
  | .tuple items, h => by
      rw [Value.isKept] at h
      exact Value.areKept_mapAllNumbers hg h
  | .closure _ _ body env, h => by
      rw [Value.isKept, Bool.and_eq_true, Bool.and_eq_true] at h
      simp [Value.mapNumbers, Value.isKept, Expr.isKept_mapNumbers hg h.1.1,
        Value.areBoundKept_mapBoundNumbers hg h.1.2,
        Value.pairwise_mapBoundNumbers (of_decide_eq_true h.2)]

theorem Value.areKept_mapAllNumbers (hg : ∀ n, keeps n → others (g n)) :
    ∀ {vs : List Value}, Value.areKept keeps vs → Value.areKept others (Value.mapAllNumbers g vs)
  | [], _ => rfl
  | v :: rest, h => by
      rw [Value.areKept, Bool.and_eq_true] at h
      simp [Value.mapAllNumbers, Value.areKept, Value.isKept_mapNumbers hg h.1,
        Value.areKept_mapAllNumbers hg h.2]

theorem Value.areBoundKept_mapBoundNumbers (hg : ∀ n, keeps n → others (g n)) :
    ∀ {env : List (String × Value)}, Value.areBoundKept keeps env →
      Value.areBoundKept others (Value.mapBoundNumbers g env)
  | [], _ => rfl
  | (_, v) :: rest, h => by
      rw [Value.areBoundKept, Bool.and_eq_true] at h
      simp [Value.mapBoundNumbers, Value.areBoundKept, Value.isKept_mapNumbers hg h.1,
        Value.areBoundKept_mapBoundNumbers hg h.2]

end

/-- Leaves are replaced as numbers are: texts and truth values stay, and numbers that are kept
become the new ones. -/
structure Scalar.Replaces (keeps : Number → Bool) (g : Number → Number) (f : Scalar → Scalar) :
    Prop where
  text : ∀ s, f (.text s) = .text s
  bool : ∀ b, f (.bool b) = .bool b
  number : ∀ n, keeps n → f (.number n) = .number (g n)

namespace Document

@[simp]
theorem mapLeaves_choice (name : String) (d : Document) :
    (choice name d).mapLeaves f = choice name (d.mapLeaves f) := rfl

@[simp]
theorem mapLeaves_list (items : List Document) :
    (list items).mapLeaves f = list (mapItems f items) := rfl

@[simp]
theorem mapLeaves_object (fields : List (String × Document)) :
    (object fields).mapLeaves f = object (mapFields f fields) := rfl

@[simp]
theorem mapFields_nil : mapFields f [] = [] := rfl

@[simp]
theorem mapFields_cons (name : String) (d : Document) (rest : List (String × Document)) :
    mapFields f ((name, d) :: rest) = (name, d.mapLeaves f) :: mapFields f rest := rfl

mutual

theorem mapLeaves_id : ∀ d : Document, d.mapLeaves id = d
  | .scalar _ | .unreadable => rfl
  | .list items => by rw [mapLeaves_list, mapItems_id items]
  | .object fields => by rw [mapLeaves_object, mapFields_id fields]
  | .tagged content => by rw [mapLeaves, mapLeaves_id content]

theorem mapItems_id : ∀ items : List Document, mapItems id items = items
  | [] => rfl
  | d :: rest => by rw [mapItems, mapLeaves_id d, mapItems_id rest]

theorem mapFields_id : ∀ fields : List (String × Document), mapFields id fields = fields
  | [] => rfl
  | (_, d) :: rest => by rw [mapFields_cons, mapLeaves_id d, mapFields_id rest]

end

variable (hf : Scalar.Replaces keeps g f)

include hf

theorem mapLeaves_text (s : String) : (text s).mapLeaves f = text s :=
  congrArg scalar (hf.text s)

theorem mapLeaves_bool (b : Bool) : (bool b).mapLeaves f = bool b := congrArg scalar (hf.bool b)

theorem mapLeaves_number {n : Number} (h : keeps n) : (number n).mapLeaves f = number (g n) :=
  congrArg scalar (hf.number n h)

theorem mapLeaves_texts (l : List String) : (texts l).mapLeaves f = texts l := by
  rw [texts, mapLeaves_list, mapItems_eq, List.map_map]
  congr 2
  exact funext (mapLeaves_text hf)

end Document

open Document

mutual

/-- The document of a program with other numbers has other leaves. -/
theorem Expr.document_mapNumbers (hf : Scalar.Replaces keeps g f) : ∀ {e : Expr},
    e.isKept keeps → (e.mapNumbers g).document = e.document.mapLeaves f
  | .literal v, h => by
      rw [Expr.isKept] at h
      simp [Expr.mapNumbers, Expr.document, Value.document_mapNumbers hf h]
  | .var name, _ | .sense name, _ | .neighborSense name, _ => by
      simp [Expr.mapNumbers, Expr.document, mapLeaves_text hf]
  | .selfId, _ => (mapLeaves_text hf _).symm
  | .lambda code params body, h => by
      rw [Expr.isKept] at h
      simp [Expr.mapNumbers, Expr.document, mapLeaves_text hf, mapLeaves_texts hf,
        Expr.document_mapNumbers hf h]
  | .apply function args, h => by
      rw [Expr.isKept, Bool.and_eq_true] at h
      simp [Expr.mapNumbers, Expr.document, Expr.document_mapNumbers hf h.1,
        Expr.documents_mapAllNumbers hf h.2]
  | .letIn name value body, h => by
      rw [Expr.isKept, Bool.and_eq_true] at h
      simp [Expr.mapNumbers, Expr.document, mapLeaves_text hf, Expr.document_mapNumbers hf h.1,
        Expr.document_mapNumbers hf h.2]
  | .branch condition thenSide elseSide, h => by
      rw [Expr.isKept, Bool.and_eq_true, Bool.and_eq_true] at h
      simp [Expr.mapNumbers, Expr.document, Expr.document_mapNumbers hf h.1.1,
        Expr.document_mapNumbers hf h.1.2, Expr.document_mapNumbers hf h.2]
  | .rep init var update, h => by
      rw [Expr.isKept, Bool.and_eq_true] at h
      simp [Expr.mapNumbers, Expr.document, mapLeaves_text hf, Expr.document_mapNumbers hf h.1,
        Expr.document_mapNumbers hf h.2]
  | .nbr body, h => by
      rw [Expr.isKept] at h
      simp [Expr.mapNumbers, Expr.document, Expr.document_mapNumbers hf h]
  | .neighborFold default accumulator generator includeSelf, h => by
      rw [Expr.isKept, Bool.and_eq_true, Bool.and_eq_true] at h
      simp [Expr.mapNumbers, Expr.document, mapLeaves_bool hf, Expr.document_mapNumbers hf h.1.1,
        Expr.document_mapNumbers hf h.1.2, Expr.document_mapNumbers hf h.2]

theorem Expr.documents_mapAllNumbers (hf : Scalar.Replaces keeps g f) : ∀ {es : List Expr},
    Expr.areKept keeps es →
      Expr.documents (Expr.mapAllNumbers g es) = mapItems f (Expr.documents es)
  | [], _ => rfl
  | e :: rest, h => by
      rw [Expr.areKept, Bool.and_eq_true] at h
      rw [Expr.mapAllNumbers, Expr.documents, Expr.documents, mapItems,
        Expr.document_mapNumbers hf h.1, Expr.documents_mapAllNumbers hf h.2]

theorem Value.document_mapNumbers (hf : Scalar.Replaces keeps g f) : ∀ {v : Value},
    v.isKept keeps → (v.mapNumbers g).document = v.document.mapLeaves f
  | .unit, _ => (mapLeaves_text hf _).symm
  | .bool b, _ => by simp [Value.mapNumbers, Value.document, mapLeaves_bool hf]
  | .number n, h => by
      rw [Value.isKept] at h
      simp [Value.mapNumbers, Value.document, mapLeaves_number hf h]
  | .text s, _ => by simp [Value.mapNumbers, Value.document, mapLeaves_text hf]
  | .tuple items, h => by
      rw [Value.isKept] at h
      simp [Value.mapNumbers, Value.document, Value.documents_mapAllNumbers hf h]
  | .builtin b, _ => by simp [Value.mapNumbers, Value.document, mapLeaves_text hf]
  | .closure code params body env, h => by
      rw [Value.isKept, Bool.and_eq_true, Bool.and_eq_true] at h
      simp [Value.mapNumbers, Value.document, mapLeaves_text hf, mapLeaves_texts hf,
        Expr.document_mapNumbers hf h.1.1, Value.bindings_mapBoundNumbers hf h.1.2]

theorem Value.documents_mapAllNumbers (hf : Scalar.Replaces keeps g f) : ∀ {vs : List Value},
    Value.areKept keeps vs →
      Value.documents (Value.mapAllNumbers g vs) = mapItems f (Value.documents vs)
  | [], _ => rfl
  | v :: rest, h => by
      rw [Value.areKept, Bool.and_eq_true] at h
      rw [Value.mapAllNumbers, Value.documents, Value.documents, mapItems,
        Value.document_mapNumbers hf h.1, Value.documents_mapAllNumbers hf h.2]

theorem Value.bindings_mapBoundNumbers (hf : Scalar.Replaces keeps g f) :
    ∀ {env : List (String × Value)}, Value.areBoundKept keeps env →
      Value.bindings (Value.mapBoundNumbers g env) = mapFields f (Value.bindings env)
  | [], _ => rfl
  | (name, v) :: rest, h => by
      rw [Value.areBoundKept, Bool.and_eq_true] at h
      rw [Value.mapBoundNumbers, Value.bindings, Value.bindings, mapFields_cons,
        Value.document_mapNumbers hf h.1, Value.bindings_mapBoundNumbers hf h.2]

end

/-! ## Nesting -/

mutual

theorem Document.nesting_mapLeaves : ∀ d : Document, (d.mapLeaves f).nesting = d.nesting
  | .scalar _ | .unreadable => rfl
  | .list items => by
      rw [mapLeaves_list, nesting_list, nesting_list, itemsNesting_mapItems items]
  | .object fields => by
      rw [mapLeaves_object, nesting_object, nesting_object, fieldsNesting_mapFields fields]
  | .tagged content => nesting_mapLeaves content

theorem Document.itemsNesting_mapItems :
    ∀ items : List Document, itemsNesting (mapItems f items) = itemsNesting items
  | [] => rfl
  | d :: rest => by
      rw [mapItems, itemsNesting, itemsNesting, nesting_mapLeaves d, itemsNesting_mapItems rest]

theorem Document.fieldsNesting_mapFields : ∀ fields : List (String × Document),
    fieldsNesting (mapFields f fields) = fieldsNesting fields
  | [] => rfl
  | (_, d) :: rest => by
      rw [mapFields_cons, fieldsNesting_cons, fieldsNesting_cons, nesting_mapLeaves d,
        fieldsNesting_mapFields rest]

end

end Replacement

end FieldCalculus
