import FieldCalculus.Proofs.Passing

/-!
What an evaluation does not depend on. The functions that come up in a round are those that its
program and the values given to it hold. If none of them folds, the neighbors make no difference.
-/

namespace FieldCalculus

/-- All nodes that the value holds are among these. -/
def Value.Within (nodes : List Expr) (v : Value) : Prop := v.nodes ⊆ nodes

namespace Value.Within

variable {nodes : List Expr}

theorem of_isData {v : Value} (h : v.isData) : v.Within nodes := by
  simp [Within, Value.nodes_of_isData h]

theorem hereditary (nodes : List Expr) : Value.Hereditary (Value.Within nodes) :=
  ⟨of_isData, Value.nodesAll_subset⟩

theorem closure_iff {code : CodeId} {params : List String} {body : Expr} {env : Env} :
    (Value.closure code params body env).Within nodes ↔
      (Expr.lambda code params body).nodes ⊆ nodes ∧ ∀ entry ∈ env, entry.2.Within nodes := by
  unfold Within
  rw [Value.nodes, Expr.nodes, List.cons_subset, List.cons_subset, List.append_subset,
    Value.nodesEnv_subset, and_assoc]

end Value.Within

/-- Whether the node is a fold. -/
def Expr.isFold : Expr → Bool
  | .neighborFold _ _ _ _ => true
  | _ => false

/-- The same position in a round with other neighbors. -/
def Context.hearing (ctx : Context) (neighbors : NeighborSnapshot) : Context :=
  { ctx with inputs := { ctx.inputs with neighbors := neighbors } }

namespace Eval

/-! ## Nodes in reach -/

section Reach

variable {nodes : List Expr} {recur : Expr → Context → Eval Value}

/-- Of programs with nodes among these, the evaluator makes values with nodes among these. -/
def KeepsWithin (nodes : List Expr) (recur : Expr → Context → Eval Value) : Prop :=
  ∀ {e : Expr}, e.nodes ⊆ nodes → ∀ env,
    KeepsUnder (Value.Within nodes) (fun _ => True) recur env e

theorem ordinary_any : Ordinary fun _ => True := ⟨fun _ => trivial, trivial, trivial⟩

/-- A closure is called in the place of a lambda that it stands for. -/
theorem KeepsWithin.calls (hkeeps : KeepsWithin nodes recur) :
    CallsKeep (Value.Within nodes) (fun _ => True) recur where
  captured hclosure := (Value.Within.closure_iff.mp hclosure).2
  called hclosure _ _ := by
    have hlambda := (Value.Within.closure_iff.mp hclosure).1
    rw [Expr.nodes, List.cons_subset] at hlambda
    exact hkeeps hlambda.2 _

theorem keepsWithin_step (hkeeps : KeepsWithin nodes recur) : KeepsWithin nodes (step recur) := by
  intro e he env
  refine keepsUnder_step (Value.Within.hereditary nodes) ordinary_any hkeeps.calls ?_
  cases e with
  | literal v =>
      rw [Expr.nodes, List.cons_subset] at he
      exact he.2
  | var name => exact fun _ _ => trivial
  | sense _ | neighborSense _ | selfId => trivial
  | lambda code params body => exact fun henv => Value.Within.closure_iff.mpr ⟨he, henv⟩
  | apply function args =>
      rw [Expr.nodes, List.cons_subset, List.append_subset, Expr.nodesAll_subset] at he
      exact ⟨hkeeps he.2.1 env, fun arg harg => hkeeps (he.2.2 arg harg) env⟩
  | letIn name value body =>
      rw [Expr.nodes, List.cons_subset, List.append_subset] at he
      exact ⟨hkeeps he.2.1 env, fun _ _ => hkeeps he.2.2 _⟩
  | branch condition thenSide elseSide =>
      rw [Expr.nodes, List.cons_subset, List.append_subset, List.append_subset] at he
      exact ⟨hkeeps he.2.1.1 env, hkeeps he.2.1.2 env, hkeeps he.2.2 env⟩
  | rep init name update =>
      rw [Expr.nodes, List.cons_subset, List.append_subset] at he
      exact ⟨hkeeps he.2.1 env, fun _ _ => hkeeps he.2.2 _⟩
  | nbr body =>
      rw [Expr.nodes, List.cons_subset] at he
      exact hkeeps he.2 env
  | neighborFold default accumulator generator includeSelf =>
      rw [Expr.nodes, List.cons_subset, List.append_subset, List.append_subset] at he
      exact ⟨hkeeps he.2.1.1 env, hkeeps he.2.1.2 env, hkeeps he.2.2 env⟩

theorem eval_keepsWithin (depth : Nat) : KeepsWithin nodes (eval depth) := by
  induction depth with
  | zero => exact fun _ _ _ _ _ => .fail trivial
  | succ depth ih => exact keepsWithin_step ih

/-- Nothing that is not in reach comes up. -/
theorem within_of_eval {e : Expr} {ctx : Context} {depth slots : Nat} {y : Yield Value}
    (he : e.nodes ⊆ nodes) (hctx : ctx.All (Value.Within nodes))
    (h : eval depth e ctx slots = .ok y) :
    y.value.Within nodes ∧ ∀ put ∈ y.puts, put.2.Within nodes :=
  (eval_keepsWithin depth he ctx.env ctx hctx rfl).finished slots y h

end Reach

/-! ## Evaluation without folds -/

/-- Computations that go on alike from every value that the first can have are alike. -/
theorem Keeps.bind_congr {α β : Type} {good : Value → Prop} {reason : Interrupt → Prop}
    {post : α → Prop} {x : Eval α} {f f' : α → Eval β} (hx : x.Keeps good reason post)
    (hf : ∀ a, post a → f a = f' a) : x >>= f = x >>= f' := by
  funext slots
  cases hy : x slots with
  | error interrupt => simp only [Bind.bind, hy]
  | ok y => rw [bind_run hy, bind_run hy, hf y.value (hx.finished slots y hy).1]

section Node

variable {nodes : List Expr} {neighbors : NeighborSnapshot} {ctx : Context}
  {recur : Expr → Context → Eval Value}

/-- The evaluator comes to the same with these neighbors as with the others, wherever all values in
reach hold nodes among these only. -/
def Unheard (nodes : List Expr) (neighbors : NeighborSnapshot)
    (recur : Expr → Context → Eval Value) : Prop :=
  ∀ {e : Expr} {ctx : Context}, e.nodes ⊆ nodes → ctx.All (Value.Within nodes) →
    recur e (ctx.hearing neighbors) = recur e ctx

variable (hkeeps : KeepsWithin nodes recur) (hsame : Unheard nodes neighbors recur)

include hsame

theorem unheard_evalAll {es : List Expr} (hes : ∀ e ∈ es, e.nodes ⊆ nodes)
    (hctx : ctx.All (Value.Within nodes)) :
    evalAll recur (ctx.hearing neighbors) es = evalAll recur ctx es := by
  induction es with
  | nil => rfl
  | cons e rest ih =>
      obtain ⟨he, hrest⟩ := List.forall_mem_cons.mp hes
      rw [evalAll, evalAll, hsame he hctx, ih hrest]

theorem unheard_applyTo {function : Value} {args : List Value} (hfunction : function.Within nodes)
    (hargs : ∀ v ∈ args, v.Within nodes) (hctx : ctx.All (Value.Within nodes)) :
    applyTo recur function args (ctx.hearing neighbors) = applyTo recur function args ctx := by
  cases function with
  | closure code params body env =>
      obtain ⟨hlambda, henv⟩ := Value.Within.closure_iff.mp hfunction
      rw [Expr.nodes, List.cons_subset] at hlambda
      rw [applyTo_closure, applyTo_closure]
      split
      · rfl
      · refine bind_congr (m := Eval) fun index => congrArg inside ?_
        exact hsame hlambda.2 ((hctx.nest _).called henv hargs)
  | _ => rfl

theorem unheard_repAt (hctx : ctx.All (Value.Within nodes)) {init update : Expr} (name : String)
    (hinit : init.nodes ⊆ nodes) (hupdate : update.nodes ⊆ nodes) :
    repAt recur init name update (ctx.hearing neighbors) = repAt recur init name update ctx := by
  have hremembered : (ctx.hearing neighbors).remembered = ctx.remembered := rfl
  rw [repAt, repAt, hremembered]
  cases hprevious : ctx.remembered with
  | none => exact congrArg inside (hsame hinit hctx)
  | some previous =>
      exact congrArg inside (hsame hupdate (hctx.bind name (hctx.remembered hprevious)))

theorem unheard_nbrAt (hctx : ctx.All (Value.Within nodes)) {body : Expr}
    (hbody : body.nodes ⊆ nodes) (focus : Focus) :
    nbrAt recur body focus (ctx.hearing neighbors) = nbrAt recur body focus ctx := by
  cases focus with
  | neighbor id exported => rfl
  | self =>
      rw [nbrAt, nbrAt, hsame hbody hctx]
      rfl

include hkeeps

theorem unheard_step (hfolds : ∀ node ∈ nodes, node.isFold = false) :
    Unheard nodes neighbors (step recur) := by
  intro e ctx he hctx
  cases e with
  | literal _ | var _ | sense _ | neighborSense _ | selfId | lambda _ _ _ => rfl
  | apply function args =>
      rw [Expr.nodes, List.cons_subset, List.append_subset, Expr.nodesAll_subset] at he
      obtain ⟨-, hfunction, hargs⟩ := he
      rw [step_apply, step_apply, hsame hfunction hctx, unheard_evalAll hsame hargs hctx]
      refine (hkeeps hfunction _ ctx hctx rfl).bind_congr fun f hf => ?_
      have hvalues := keeps_evalAll hctx fun arg harg => hkeeps (hargs arg harg) ctx.env
      exact hvalues.bind_congr fun vs hvs => unheard_applyTo hsame hf hvs hctx
  | letIn name value body =>
      rw [Expr.nodes, List.cons_subset, List.append_subset] at he
      obtain ⟨-, hvalue, hbody⟩ := he
      rw [step_letIn, step_letIn, hsame hvalue hctx]
      refine (hkeeps hvalue _ ctx hctx rfl).bind_congr fun v hv => ?_
      exact hsame hbody (hctx.bind name hv)
  | branch condition thenSide elseSide =>
      rw [Expr.nodes, List.cons_subset, List.append_subset, List.append_subset] at he
      obtain ⟨-, ⟨hcondition, hthen⟩, helse⟩ := he
      rw [step_branch, step_branch, hsame hcondition hctx]
      refine bind_congr (m := Eval) fun c => bind_congr (m := Eval) fun taken =>
        bind_congr (m := Eval) fun index => ?_
      have hside : (if taken then thenSide else elseSide).nodes ⊆ nodes := by
        cases taken
        · exact helse
        · exact hthen
      have hinner := hsame hside (hctx.nest (.branch index taken))
      exact congrArg (fun x => inside x >>= _) hinner
  | rep init name update =>
      rw [Expr.nodes, List.cons_subset, List.append_subset] at he
      obtain ⟨-, hinit, hupdate⟩ := he
      rw [step_rep, step_rep]
      refine bind_congr (m := Eval) fun index => ?_
      have hinner := unheard_repAt hsame (hctx.nest (.rep index)) name hinit hupdate
      exact congrArg (· >>= _) hinner
  | nbr body =>
      rw [Expr.nodes, List.cons_subset] at he
      rw [step_nbr, step_nbr]
      refine bind_congr (m := Eval) fun index => ?_
      exact unheard_nbrAt hsame (hctx.nest (.nbr index)) he.2 ctx.focus
  | neighborFold default accumulator generator includeSelf =>
      have hfold := hfolds _ (he (Expr.self_mem_nodes _))
      cases hfold

omit hkeeps hsame

theorem eval_unheard (hfolds : ∀ node ∈ nodes, node.isFold = false) (depth : Nat) :
    Unheard nodes neighbors (eval depth) := by
  induction depth with
  | zero => exact fun _ _ => rfl
  | succ depth ih => exact unheard_step (eval_keepsWithin depth) ih hfolds

end Node

end Eval

end FieldCalculus
