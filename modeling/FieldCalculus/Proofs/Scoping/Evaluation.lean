import FieldCalculus.Proofs.Passing

/-!
Scoping. In a well-scoped program every variable stands under a binder of its name, and in a
well-scoped value every closure binds what its body reads, by its parameters or by what it has
captured. A program that is given well-scoped values never misses a variable and leaves
well-scoped values behind, although closures travel through folds, states and exports to be
called in other places than where they were made.
-/

namespace FieldCalculus

mutual

/-- Every variable of the program is among the names or under a binder of its name, and every
literal is well scoped. -/
def Expr.scopedIn : Expr → List String → Bool
  | .literal v, _ => Value.scoped v
  | .var name, names => name ∈ names
  | .sense _, _ | .neighborSense _, _ | .selfId, _ => true
  | .lambda _ params body, names => Expr.scopedIn body (params ++ names)
  | .apply function args, names => Expr.scopedIn function names && Expr.scopedInAll args names
  | .letIn name value body, names =>
    Expr.scopedIn value names && Expr.scopedIn body (name :: names)
  | .branch condition thenSide elseSide, names =>
    Expr.scopedIn condition names && Expr.scopedIn thenSide names && Expr.scopedIn elseSide names
  | .rep init name update, names =>
    Expr.scopedIn init names && Expr.scopedIn update (name :: names)
  | .nbr body, names => Expr.scopedIn body names
  | .neighborFold default accumulator generator _, names =>
    Expr.scopedIn default names && Expr.scopedIn accumulator names &&
      Expr.scopedIn generator names

/-- Every closure that the value is or holds binds the variables of its body, and has captured
well-scoped values. -/
def Value.scoped : Value → Bool
  | .unit | .bool _ | .number _ | .text _ | .builtin _ => true
  | .tuple items => Value.scopedAll items
  | .closure _ params body env =>
    Expr.scopedIn body (params ++ env.map Prod.fst) && Value.scopedEnv env

def Expr.scopedInAll : List Expr → List String → Bool
  | [], _ => true
  | e :: rest, names => Expr.scopedIn e names && Expr.scopedInAll rest names

def Value.scopedAll : List Value → Bool
  | [] => true
  | v :: rest => Value.scoped v && Value.scopedAll rest

def Value.scopedEnv : List (String × Value) → Bool
  | [] => true
  | (_, v) :: rest => Value.scoped v && Value.scopedEnv rest

end

theorem Expr.scopedInAll_iff {es : List Expr} {names : List String} :
    Expr.scopedInAll es names ↔ ∀ e ∈ es, e.scopedIn names := by
  induction es with
  | nil => simp [Expr.scopedInAll]
  | cons head rest ih => simp [Expr.scopedInAll, ih]

theorem Value.scopedAll_iff {vs : List Value} : Value.scopedAll vs ↔ ∀ v ∈ vs, v.scoped := by
  induction vs with
  | nil => simp [Value.scopedAll]
  | cons head rest ih => simp [Value.scopedAll, ih]

theorem Value.scopedEnv_iff {env : Env} :
    Value.scopedEnv env ↔ ∀ entry ∈ env, entry.2.scoped := by
  induction env with
  | nil => simp [Value.scopedEnv]
  | cons head rest ih => simp [Value.scopedEnv, ih]

mutual

/-- More names in scope do no harm. -/
theorem Expr.scopedIn_mono {e : Expr} {names more : List String} (hnames : names ⊆ more)
    (h : e.scopedIn names) : e.scopedIn more := by
  have hunder : ∀ bound : List String, bound ++ names ⊆ bound ++ more := fun bound =>
    List.append_subset.mpr
      ⟨List.subset_append_left _ _, List.subset_append_of_subset_right _ hnames⟩
  cases e with
  | literal v => exact h
  | var name =>
      simp only [Expr.scopedIn, decide_eq_true_eq] at h ⊢
      exact hnames h
  | sense _ | neighborSense _ | selfId => rfl
  | lambda code params body => exact Expr.scopedIn_mono (e := body) (hunder params) h
  | apply function args =>
      simp only [Expr.scopedIn, Bool.and_eq_true] at h ⊢
      exact ⟨Expr.scopedIn_mono hnames h.1, Expr.scopedInAll_mono hnames h.2⟩
  | letIn name value body =>
      simp only [Expr.scopedIn, Bool.and_eq_true] at h ⊢
      exact ⟨Expr.scopedIn_mono hnames h.1, Expr.scopedIn_mono (hunder [name]) h.2⟩
  | branch condition thenSide elseSide =>
      simp only [Expr.scopedIn, Bool.and_eq_true] at h ⊢
      exact ⟨⟨Expr.scopedIn_mono hnames h.1.1, Expr.scopedIn_mono hnames h.1.2⟩,
        Expr.scopedIn_mono hnames h.2⟩
  | rep init name update =>
      simp only [Expr.scopedIn, Bool.and_eq_true] at h ⊢
      exact ⟨Expr.scopedIn_mono hnames h.1, Expr.scopedIn_mono (hunder [name]) h.2⟩
  | nbr body => exact Expr.scopedIn_mono (e := body) hnames h
  | neighborFold default accumulator generator includeSelf =>
      simp only [Expr.scopedIn, Bool.and_eq_true] at h ⊢
      exact ⟨⟨Expr.scopedIn_mono hnames h.1.1, Expr.scopedIn_mono hnames h.1.2⟩,
        Expr.scopedIn_mono hnames h.2⟩

theorem Expr.scopedInAll_mono {es : List Expr} {names more : List String} (hnames : names ⊆ more)
    (h : Expr.scopedInAll es names) : Expr.scopedInAll es more := by
  cases es with
  | nil => rfl
  | cons e rest =>
      simp only [Expr.scopedInAll, Bool.and_eq_true] at h ⊢
      exact ⟨Expr.scopedIn_mono hnames h.1, Expr.scopedInAll_mono hnames h.2⟩

end

mutual

theorem Value.scoped_of_isData {v : Value} (h : v.isData) : v.scoped := by
  cases v with
  | tuple items => exact Value.scopedAll_of_isDataAll h
  | builtin _ | closure _ _ _ _ => cases h
  | _ => rfl

theorem Value.scopedAll_of_isDataAll {vs : List Value} (h : Value.isDataAll vs) :
    Value.scopedAll vs := by
  cases vs with
  | nil => rfl
  | cons v rest =>
      simp only [Value.isDataAll, Bool.and_eq_true] at h
      simp [Value.scopedAll, Value.scoped_of_isData h.1, Value.scopedAll_of_isDataAll h.2]

end

theorem Value.hereditary_scoped : Value.Hereditary fun v => v.scoped :=
  ⟨Value.scoped_of_isData, Value.scopedAll_iff⟩

/-- What a well-scoped closure consists of. -/
theorem Value.scoped_closure {code : CodeId} {params : List String} {body : Expr} {env : Env}
    (h : (Value.closure code params body env).scoped) :
    body.scopedIn (params ++ env.map Prod.fst) ∧ ∀ entry ∈ env, entry.2.scoped := by
  rw [Value.scoped, Bool.and_eq_true, Value.scopedEnv_iff] at h
  exact h

/-! ## Faults -/

/-- The fault is another one than a variable that has no value. -/
def Fault.Scoped (fault : Fault) : Prop := ∀ name, fault ≠ .unboundVariable name

theorem Fault.IsMisuse.scoped {fault : Fault} (h : fault.IsMisuse) : fault.Scoped := by
  rintro name rfl
  exact h

/-- Export whose values are all well scoped. -/
abbrev Export.Scoped (e : Export) : Prop := e.All fun v => v.scoped

/-! ## Evaluation -/

namespace Eval

/-- Misused and missing values are other faults than a missed variable. -/
theorem ordinary_scoped : Ordinary fun interrupt => interrupt.error.fault.Scoped where
  misuse hmisuse := hmisuse.scoped
  unavailable _ hname := by cases hname
  absent _ hname := by cases hname

/-- A well-scoped program under bindings of the names keeps to well-scoped values, and so do the
closures that it calls, which bind what they read. -/
theorem keepsUnder_scoped (depth : Nat) {e : Expr} {names : List String} {env : Env}
    (he : e.scopedIn names) (hbound : names ⊆ env.map Prod.fst) :
    KeepsUnder (fun v => v.scoped) (fun interrupt => interrupt.error.fault.Scoped) (eval depth)
      env e := by
  induction depth generalizing e names env with
  | zero =>
      refine fun ctx _ _ => .fail ?_
      intro name hname
      cases hname
  | succ depth ih =>
      have hcalls : CallsKeep (fun v => v.scoped) (fun interrupt => interrupt.error.fault.Scoped)
          (eval depth) := by
        refine ⟨fun hclosure => (Value.scoped_closure hclosure).2, ?_⟩
        intro code params body env args hclosure _ hcount
        have hkeys := Entries.keys_subset_insertAll env (params.zip args)
        rw [List.map_fst_zip (Nat.le_of_eq hcount)] at hkeys
        exact ih (Value.scoped_closure hclosure).1 hkeys
      have hinner : ∀ name v, name :: names ⊆ (Entries.insert name v env).map Prod.fst :=
        fun name v _ hmem =>
          Entries.keys_subset_insert name v env (List.cons_subset_cons name hbound hmem)
      refine keepsUnder_step Value.hereditary_scoped ordinary_scoped hcalls ?_
      cases e with
      | literal v => exact he
      | var name =>
          rw [Expr.scopedIn, decide_eq_true_eq] at he
          obtain ⟨v, hv⟩ := Entries.exists_find?_of_mem_keys (hbound he)
          intro hnone
          rw [hv] at hnone
          cases hnone
      | sense _ | neighborSense _ | selfId => trivial
      | lambda code params body =>
          intro henv
          rw [Value.scoped, Bool.and_eq_true, Value.scopedEnv_iff]
          have hnames : params ++ names ⊆ params ++ env.map Prod.fst :=
            List.append_subset.mpr ⟨List.subset_append_left _ _,
              List.subset_append_of_subset_right _ hbound⟩
          exact ⟨Expr.scopedIn_mono hnames he, henv⟩
      | apply function args =>
          rw [Expr.scopedIn, Bool.and_eq_true, Expr.scopedInAll_iff] at he
          exact ⟨ih he.1 hbound, fun arg harg => ih (he.2 arg harg) hbound⟩
      | letIn name value body =>
          rw [Expr.scopedIn, Bool.and_eq_true] at he
          exact ⟨ih he.1 hbound, fun v _ => ih he.2 (hinner name v)⟩
      | branch condition thenSide elseSide =>
          rw [Expr.scopedIn, Bool.and_eq_true, Bool.and_eq_true] at he
          exact ⟨ih he.1.1 hbound, ih he.1.2 hbound, ih he.2 hbound⟩
      | rep init name update =>
          rw [Expr.scopedIn, Bool.and_eq_true] at he
          exact ⟨ih he.1 hbound, fun v _ => ih he.2 (hinner name v)⟩
      | nbr body => exact ih (e := body) he hbound
      | neighborFold default accumulator generator includeSelf =>
          rw [Expr.scopedIn, Bool.and_eq_true, Bool.and_eq_true] at he
          exact ⟨ih he.1.1 hbound, ih he.1.2 hbound, ih he.2 hbound⟩

end Eval

/-! ## Rounds -/

/-- A well-scoped program leaves well-scoped values behind and misses no variable. -/
theorem evaluate_scoped {program : Expr} {inputs : RoundInputs} (hprogram : program.scopedIn [])
    (hinputs : inputs.All fun v => v.scoped) :
    (∀ result, evaluate program inputs = .ok result → result.All fun v => v.scoped) ∧
      ∀ error, evaluate program inputs = .error error → error.fault.Scoped := by
  obtain ⟨hresult, herror⟩ :=
    (Eval.keepsUnder_scoped depthLimit hprogram (List.nil_subset _)).evaluated hinputs
  rw [evaluate_eq_within]
  refine ⟨hresult, ?_⟩
  intro error hfails
  obtain ⟨_, hscoped, rfl⟩ := herror error hfails
  exact hscoped

theorem passesOn_scoped : PassesOn (fun program => program.scopedIn []) fun v => v.scoped :=
  fun _ _ result hprogram hinputs => (evaluate_scoped hprogram hinputs).1 result

end FieldCalculus
