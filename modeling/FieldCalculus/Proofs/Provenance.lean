import FieldCalculus.Builtin.Call
import FieldCalculus.Context
import FieldCalculus.Proofs.Levels

/-!
Where values come from. In a program that passes no built-ins around beside its lambdas, a value
is made of data and of the program's own functions, and applying an operator keeps it so.
-/

namespace FieldCalculus

mutual

/-- The value neither is nor holds a function. -/
def Value.isData : Value → Bool
  | .unit | .bool _ | .number _ | .text _ => true
  | .tuple items => Value.isDataAll items
  | .builtin _ | .closure _ _ _ _ => false

def Value.isDataAll : List Value → Bool
  | [] => true
  | v :: rest => Value.isData v && Value.isDataAll rest

end

mutual

theorem Value.nodes_of_isData {v : Value} (h : v.isData) : v.nodes = [] := by
  cases v with
  | tuple items => exact Value.nodesAll_of_isDataAll h
  | builtin _ | closure _ _ _ _ => cases h
  | _ => rfl

theorem Value.nodesAll_of_isDataAll {vs : List Value} (h : Value.isDataAll vs) :
    Value.nodesAll vs = [] := by
  cases vs with
  | nil => rfl
  | cons v rest =>
      simp only [Value.isDataAll, Bool.and_eq_true] at h
      rw [Value.nodesAll, Value.nodes_of_isData h.1, Value.nodesAll_of_isDataAll h.2]
      rfl

end

mutual

theorem Value.builtinFree_of_isData {v : Value} (h : v.isData) : v.builtinFree := by
  cases v with
  | tuple items => exact Value.builtinFreeAll_of_isDataAll h
  | builtin _ | closure _ _ _ _ => cases h
  | _ => rfl

theorem Value.builtinFreeAll_of_isDataAll {vs : List Value} (h : Value.isDataAll vs) :
    Value.builtinFreeAll vs := by
  cases vs with
  | nil => rfl
  | cons v rest =>
      simp only [Value.isDataAll, Bool.and_eq_true] at h
      simp [Value.builtinFreeAll, Value.builtinFree_of_isData h.1,
        Value.builtinFreeAll_of_isDataAll h.2]

end

/-- The expression is a part of the program and, where lambdas occur, passes no built-in around. -/
structure Expr.Of (program e : Expr) : Prop where
  nodes : e.nodes ⊆ program.nodes
  calls : program.hasLambdas → e.callsBuiltins

/-- The value is made of data and of functions of the program: of its lambdas, if it has any, and
of built-ins otherwise. -/
structure Value.Of (program : Expr) (v : Value) : Prop where
  nodes : v.nodes ⊆ program.nodes
  free : program.hasLambdas → v.builtinFree

namespace Expr.Of

variable {program : Expr}

theorem literal {v : Value} (h : Expr.Of program (.literal v)) : v.Of program := by
  obtain ⟨hnodes, hcalls⟩ := h
  rw [Expr.nodes, List.cons_subset] at hnodes
  exact ⟨hnodes.2, hcalls⟩

/-- What a program calls is a built-in that it names, or what an expression of it yields. -/
theorem apply {function : Expr} {args : List Expr} (h : Expr.Of program (.apply function args)) :
    ((∃ b, function = .literal (.builtin b)) ∨ Expr.Of program function) ∧
      ∀ e ∈ args, Expr.Of program e := by
  obtain ⟨hnodes, hcalls⟩ := h
  rw [Expr.nodes, List.cons_subset, List.append_subset, Expr.nodesAll_subset] at hnodes
  obtain ⟨-, hfunction, hargs⟩ := hnodes
  by_cases hnamed : ∃ b, function = .literal (.builtin b)
  · obtain ⟨b, rfl⟩ := hnamed
    rw [Expr.callsBuiltins, Expr.callsBuiltinsAll_iff] at hcalls
    exact ⟨Or.inl ⟨b, rfl⟩, fun e he => ⟨hargs e he, fun hlambdas => hcalls hlambdas e he⟩⟩
  · rw [Expr.callsBuiltins, Bool.and_eq_true, Expr.callsBuiltinsAll_iff] at hcalls
    · exact ⟨Or.inr ⟨hfunction, fun hlambdas => (hcalls hlambdas).1⟩,
        fun e he => ⟨hargs e he, fun hlambdas => (hcalls hlambdas).2 e he⟩⟩
    · exact fun b hb => hnamed ⟨b, hb⟩

theorem letIn {name : String} {value body : Expr} (h : Expr.Of program (.letIn name value body)) :
    Expr.Of program value ∧ Expr.Of program body := by
  obtain ⟨hnodes, hcalls⟩ := h
  rw [Expr.nodes, List.cons_subset, List.append_subset] at hnodes
  rw [Expr.callsBuiltins, Bool.and_eq_true] at hcalls
  exact ⟨⟨hnodes.2.1, fun hlambdas => (hcalls hlambdas).1⟩,
    ⟨hnodes.2.2, fun hlambdas => (hcalls hlambdas).2⟩⟩

theorem branch {condition thenSide elseSide : Expr}
    (h : Expr.Of program (.branch condition thenSide elseSide)) :
    Expr.Of program condition ∧ ∀ taken : Bool,
      Expr.Of program (if taken then thenSide else elseSide) := by
  obtain ⟨hnodes, hcalls⟩ := h
  rw [Expr.nodes, List.cons_subset, List.append_subset, List.append_subset] at hnodes
  rw [Expr.callsBuiltins, Bool.and_eq_true, Bool.and_eq_true] at hcalls
  refine ⟨⟨hnodes.2.1.1, fun hlambdas => (hcalls hlambdas).1.1⟩, ?_⟩
  rintro (_ | _)
  · exact ⟨hnodes.2.2, fun hlambdas => (hcalls hlambdas).2⟩
  · exact ⟨hnodes.2.1.2, fun hlambdas => (hcalls hlambdas).1.2⟩

theorem rep {init update : Expr} {name : String} (h : Expr.Of program (.rep init name update)) :
    Expr.Of program init ∧ Expr.Of program update := by
  obtain ⟨hnodes, hcalls⟩ := h
  rw [Expr.nodes, List.cons_subset, List.append_subset] at hnodes
  rw [Expr.callsBuiltins, Bool.and_eq_true] at hcalls
  exact ⟨⟨hnodes.2.1, fun hlambdas => (hcalls hlambdas).1⟩,
    ⟨hnodes.2.2, fun hlambdas => (hcalls hlambdas).2⟩⟩

theorem nbr {body : Expr} (h : Expr.Of program (.nbr body)) : Expr.Of program body := by
  obtain ⟨hnodes, hcalls⟩ := h
  rw [Expr.nodes, List.cons_subset] at hnodes
  exact ⟨hnodes.2, hcalls⟩

theorem neighborFold {initial accumulator generator : Expr} {includeSelf : Bool}
    (h : Expr.Of program (.neighborFold initial accumulator generator includeSelf)) :
    Expr.Of program initial ∧
      ((∃ b, accumulator = .literal (.builtin b)) ∨ Expr.Of program accumulator) ∧
      Expr.Of program generator := by
  obtain ⟨hnodes, hcalls⟩ := h
  rw [Expr.nodes, List.cons_subset, List.append_subset, List.append_subset] at hnodes
  obtain ⟨-, ⟨hinitial, haccumulator⟩, hgenerator⟩ := hnodes
  by_cases hnamed : ∃ b, accumulator = .literal (.builtin b)
  · obtain ⟨b, rfl⟩ := hnamed
    rw [Expr.callsBuiltins, Bool.and_eq_true] at hcalls
    exact ⟨⟨hinitial, fun hlambdas => (hcalls hlambdas).1⟩, Or.inl ⟨b, rfl⟩,
      ⟨hgenerator, fun hlambdas => (hcalls hlambdas).2⟩⟩
  · rw [Expr.callsBuiltins, Bool.and_eq_true, Bool.and_eq_true] at hcalls
    · exact ⟨⟨hinitial, fun hlambdas => (hcalls hlambdas).1.1⟩,
        Or.inr ⟨haccumulator, fun hlambdas => (hcalls hlambdas).1.2⟩,
        ⟨hgenerator, fun hlambdas => (hcalls hlambdas).2⟩⟩
    · exact fun b hb => hnamed ⟨b, hb⟩

end Expr.Of

namespace Value.Of

variable {program : Expr} {v : Value}

theorem of_isData (h : v.isData) : v.Of program :=
  ⟨by simp [Value.nodes_of_isData h], fun _ => Value.builtinFree_of_isData h⟩

theorem tuple_iff {items : List Value} :
    (Value.tuple items).Of program ↔ ∀ v ∈ items, v.Of program := by
  constructor
  · rintro ⟨hnodes, hfree⟩ v hv
    exact ⟨Value.nodesAll_subset.mp hnodes v hv,
      fun hlambdas => Value.builtinFreeAll_iff.mp (hfree hlambdas) v hv⟩
  · intro h
    exact ⟨Value.nodesAll_subset.mpr fun v hv => (h v hv).nodes,
      fun hlambdas => Value.builtinFreeAll_iff.mpr fun v hv => (h v hv).free hlambdas⟩

/-- What a closure of the program consists of. -/
theorem closure {code : CodeId} {params : List String} {body : Expr} {env : Env}
    (h : (Value.closure code params body env).Of program) :
    .lambda code params body ∈ program.nodes ∧ Expr.Of program body ∧
      ∀ entry ∈ env, entry.2.Of program := by
  obtain ⟨hnodes, hfree⟩ := h
  rw [Value.nodes, List.cons_subset, List.append_subset, Value.nodesEnv_subset] at hnodes
  rw [Value.builtinFree, Bool.and_eq_true, Value.builtinFreeEnv_iff] at hfree
  obtain ⟨hlambda, hbody, henv⟩ := hnodes
  refine ⟨hlambda, ⟨hbody, fun hlambdas => (hfree hlambdas).1⟩, ?_⟩
  intro entry hentry
  exact ⟨henv entry hentry, fun hlambdas => (hfree hlambdas).2 entry hentry⟩

theorem of_lambda {code : CodeId} {params : List String} {body : Expr} {env : Env}
    (h : Expr.Of program (.lambda code params body)) (henv : ∀ entry ∈ env, entry.2.Of program) :
    (Value.closure code params body env).Of program := by
  obtain ⟨hnodes, hcalls⟩ := h
  rw [Expr.nodes, List.cons_subset] at hnodes
  constructor
  · rw [Value.nodes, List.cons_subset, List.append_subset, Value.nodesEnv_subset]
    exact ⟨hnodes.1, hnodes.2, fun entry hentry => (henv entry hentry).nodes⟩
  · intro hlambdas
    rw [Value.builtinFree, Bool.and_eq_true, Value.builtinFreeEnv_iff]
    exact ⟨hcalls hlambdas, fun entry hentry => (henv entry hentry).free hlambdas⟩

end Value.Of

/-! ## Operators -/

/-- A property that data has, and a tuple when its items have it. -/
structure Value.Hereditary (good : Value → Prop) : Prop where
  data : ∀ {v : Value}, v.isData → good v
  tuple : ∀ {items : List Value}, good (.tuple items) ↔ ∀ v ∈ items, good v

theorem Value.Of.hereditary (program : Expr) : Value.Hereditary (Value.Of program) :=
  ⟨of_isData, tuple_iff⟩

namespace Builtin

variable {good : Value → Prop} {v : Value}

/-- A sequence of partial computations finishes when each of its parts does. -/
theorem bind_eq_ok {α β : Type} {x : Except Fault α} {f : α → Except Fault β} {b : β}
    (h : (x >>= f) = .ok b) : ∃ a, x = .ok a ∧ f a = .ok b := by
  cases x with
  | error fault => cases h
  | ok a => exact ⟨a, rfl, h⟩

theorem isData_numeric {op : Number → Number → Number} {a b : Value}
    (h : numeric op a b = .ok v) : v.isData := by
  obtain ⟨x, -, h⟩ := bind_eq_ok h
  obtain ⟨y, -, h⟩ := bind_eq_ok h
  cases h
  rfl

theorem isData_ordered {test : Ordering → Bool} {a b : Value} (h : ordered test a b = .ok v) :
    v.isData := by
  obtain ⟨o, -, h⟩ := bind_eq_ok h
  cases h
  rfl

theorem pick_eq {side : Ordering} {a b : Value} (h : pick side a b = .ok v) :
    v = a ∨ v = b := by
  obtain ⟨o, -, h⟩ := bind_eq_ok h
  simp only [pure, Except.pure, Except.ok.injEq] at h
  split at h
  · exact Or.inl h.symm
  · exact Or.inr h.symm

/-- What a tuple has, its items have. -/
theorem hereditary_item (hgood : Value.Hereditary good) {collection index : Value}
    (h : item collection index = .ok v) (hcollection : good collection) : good v := by
  obtain ⟨items, hitems, h⟩ := bind_eq_ok h
  obtain ⟨n, -, h⟩ := bind_eq_ok h
  split at h
  · rename_i found hfound
    simp only [pure, Except.pure, Except.ok.injEq] at h
    subst h
    obtain ⟨i, -, hi⟩ := Option.bind_eq_some_iff.mp hfound
    cases collection with
    | tuple _ =>
        simp only [Value.asTuple, Except.ok.injEq] at hitems
        subst hitems
        exact hgood.tuple.mp hcollection found (List.mem_of_getElem? hi)
    | _ => cases hitems
  · cases h

theorem isData_test {test : Bool → Bool} {a : Value}
    (h : (do return Value.bool (test (← a.asBool))) = Except.ok v) : v.isData := by
  obtain ⟨b, -, h⟩ := bind_eq_ok h
  cases h
  rfl

/-- Operators compute data, give arguments back, or put them into a tuple or take them out
of one. -/
theorem hereditary_compute (hgood : Value.Hereditary good) {b : Builtin} {args : List Value}
    (h : b.compute args = .ok v) (hargs : ∀ a ∈ args, good a) : good v := by
  unfold compute at h
  split at h
  case h_1 | h_2 | h_3 | h_4 => exact hgood.data (isData_numeric h)
  case h_5 | h_6 =>
    obtain ⟨n, -, h⟩ := bind_eq_ok h
    cases h
    exact hgood.data rfl
  case h_7 | h_8 =>
    rcases pick_eq h with rfl | rfl
    · exact hargs _ (by simp)
    · exact hargs _ (by simp)
  case h_9 | h_10 =>
    cases h
    exact hgood.data rfl
  case h_11 | h_12 | h_13 | h_14 => exact hgood.data (isData_ordered h)
  case h_15 =>
    obtain ⟨left, -, h⟩ := bind_eq_ok h
    cases left with
    | false =>
        cases h
        exact hgood.data rfl
    | true => exact hgood.data (isData_test h)
  case h_16 =>
    obtain ⟨left, -, h⟩ := bind_eq_ok h
    cases left with
    | false => exact hgood.data (isData_test h)
    | true =>
        cases h
        exact hgood.data rfl
  case h_17 => exact hgood.data (isData_test h)
  case h_18 =>
    obtain ⟨chosen, -, h⟩ := bind_eq_ok h
    cases chosen with
    | false =>
        cases h
        exact hargs _ (by simp)
    | true =>
        cases h
        exact hargs _ (by simp)
  case h_19 =>
    cases h
    exact hgood.tuple.mpr hargs
  case h_20 => exact hereditary_item hgood h (hargs _ (by simp))
  case h_21 =>
    obtain ⟨x, -, h⟩ := bind_eq_ok h
    obtain ⟨y, -, h⟩ := bind_eq_ok h
    cases h
    exact hgood.data rfl
  case h_22 => cases h

theorem hereditary_call (hgood : Value.Hereditary good) {b : Builtin} {args : List Value}
    (h : b.call args = .ok v) (hargs : ∀ a ∈ args, good a) : good v := by
  unfold call at h
  split at h
  · split at h
    · exact hereditary_compute hgood h hargs
    · cases h
  · exact hereditary_compute hgood h hargs

/-- What an operator makes of values of the program is one. -/
theorem of_call {program : Expr} {b : Builtin} {args : List Value} (h : b.call args = .ok v)
    (hargs : ∀ a ∈ args, a.Of program) : v.Of program :=
  hereditary_call (Value.Of.hereditary program) h hargs

end Builtin

end FieldCalculus
