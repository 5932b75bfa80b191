import FieldCalculus.Library
import FieldCalculus.Proofs.Eval

/-!
How deep evaluations nest. The bound on the depth is met by programs whose functions call each
other without end. A program that applies operators only nests as deep as it is written, and any
greater bound leaves its evaluation as it is.
-/

namespace FieldCalculus.Eval

/-! ## Evaluators that agree on the parts of a node -/

section Agree

variable {f g : Expr → Context → Eval Value}

/-- The two evaluators do the same with the program. -/
def Agree (f g : Expr → Context → Eval Value) (expr : Expr) : Prop := ∀ ctx, f expr ctx = g expr ctx

theorem evalAll_agree {exprs : List Expr} (h : ∀ expr ∈ exprs, Agree f g expr) (ctx : Context) :
    evalAll f ctx exprs = evalAll g ctx exprs := by
  induction exprs with
  | nil => rfl
  | cons expr rest ih =>
      rw [evalAll, evalAll, h expr List.mem_cons_self, ih]
      exact fun other hother => h other (List.mem_cons_of_mem _ hother)

theorem foldNeighbors_agree {generator : Expr} (h : Agree f g generator) (op : Builtin)
    (ctx : Context) (neighbors : List (DeviceId × Export)) (acc : Value) :
    foldNeighbors f generator (.builtin op) ctx neighbors acc =
      foldNeighbors g generator (.builtin op) ctx neighbors acc := by
  induction neighbors generalizing acc with
  | nil => rfl
  | cons neighbor rest ih =>
      obtain ⟨id, exported⟩ := neighbor
      rw [foldNeighbors_cons, foldNeighbors_cons, h]
      refine bind_congr fun contribution => ?_
      cases contribution with
      | none => exact ih acc
      | some value => exact bind_congr fun acc => ih acc

theorem fold_agree {generator : Expr} (h : Agree f g generator) (initial : Value) (op : Builtin)
    (includeSelf : Bool) (ctx : Context) :
    fold f initial (.builtin op) generator includeSelf ctx =
      fold g initial (.builtin op) generator includeSelf ctx := by
  rw [fold_eq, fold_eq, h]
  refine bind_congr fun own => ?_
  refine bind_congr fun start => ?_
  rw [foldNeighbors_agree h]

theorem nbrAt_agree {body : Expr} (h : Agree f g body) (focus : Focus) (inner : Context) :
    nbrAt f body focus inner = nbrAt g body focus inner := by
  cases focus with
  | neighbor id exported => rfl
  | self => rw [nbrAt, nbrAt, h]

theorem repAt_agree {init update : Expr} (hinit : Agree f g init) (hupdate : Agree f g update)
    (var : String) (inner : Context) :
    repAt f init var update inner = repAt g init var update inner := by
  rw [repAt, repAt, hinit]
  cases inner.remembered with
  | none => rfl
  | some previous => exact congrArg inside (hupdate _)

end Agree

/-! ## Bounds on the depth -/

/-- No bound on the depth above `limit` matters to the program. -/
def NestsAtMost (limit : Nat) (expr : Expr) : Prop :=
  ∀ depth ≥ limit, Agree (eval depth) (eval limit) expr

namespace NestsAtMost

variable {limit : Nat}

theorem mono {expr : Expr} (h : NestsAtMost limit expr) {larger : Nat} (hle : limit ≤ larger) :
    NestsAtMost larger expr := by
  intro depth hdepth ctx
  rw [h depth (Nat.le_trans hle hdepth), h larger hle]

/-- One level is enough for a node above parts that are bounded. -/
theorem of_step {expr : Expr}
    (h : ∀ depth ≥ limit, ∀ ctx, step (eval depth) expr ctx = step (eval limit) expr ctx) :
    NestsAtMost (limit + 1) expr := by
  intro depth hdepth ctx
  obtain ⟨depth, rfl⟩ := Nat.exists_eq_add_of_le' (Nat.le_of_add_left_le hdepth)
  exact h depth (Nat.le_of_add_le_add_right hdepth) ctx

theorem literal (v : Value) : NestsAtMost 1 (.literal v) := of_step fun _ _ _ => rfl

theorem var (name : String) : NestsAtMost 1 (.var name) := of_step fun _ _ _ => rfl

theorem sense (name : String) : NestsAtMost 1 (.sense name) := of_step fun _ _ _ => rfl

theorem nbr {body : Expr} (h : NestsAtMost limit body) : NestsAtMost (limit + 1) (.nbr body) := by
  refine of_step fun depth hdepth ctx => ?_
  rw [step_nbr, step_nbr]
  exact bind_congr fun index => nbrAt_agree (h depth hdepth) _ _

theorem rep {init update : Expr} (hinit : NestsAtMost limit init)
    (hupdate : NestsAtMost limit update) (var : String) :
    NestsAtMost (limit + 1) (.rep init var update) := by
  refine of_step fun depth hdepth ctx => ?_
  rw [step_rep, step_rep]
  refine bind_congr fun index => ?_
  rw [repAt_agree (hinit depth hdepth) (hupdate depth hdepth)]

/-- Operators are applied without going any deeper than their arguments. -/
theorem call {args : List Expr} (h : ∀ arg ∈ args, NestsAtMost (limit + 1) arg) (op : Builtin) :
    NestsAtMost (limit + 2) (.call op args) := by
  refine of_step fun depth hdepth ctx => ?_
  have hoperator : NestsAtMost (limit + 1) (.literal (.builtin op)) :=
    (literal _).mono (Nat.le_add_left _ _)
  rw [Expr.call, step_apply, step_apply, hoperator depth hdepth]
  refine (pure_bind _ _).trans (Eq.trans ?_ (pure_bind _ _).symm)
  rw [evalAll_agree fun arg harg => h arg harg depth hdepth]
  rfl

theorem neighborFold {default generator : Expr} (hdefault : NestsAtMost (limit + 1) default)
    (hgenerator : NestsAtMost (limit + 1) generator) (op : Builtin) (includeSelf : Bool) :
    NestsAtMost (limit + 2)
      (.neighborFold default (.literal (.builtin op)) generator includeSelf) := by
  refine of_step fun depth hdepth ctx => ?_
  have hoperator : NestsAtMost (limit + 1) (.literal (.builtin op)) :=
    (literal _).mono (Nat.le_add_left _ _)
  rw [step_neighborFold, step_neighborFold, hdefault depth hdepth, hoperator depth hdepth]
  refine bind_congr fun initial => ?_
  refine (pure_bind _ _).trans (Eq.trans ?_ (pure_bind _ _).symm)
  exact bind_congr fun index => fold_agree (hgenerator depth hdepth) _ _ _ _

end NestsAtMost

/-- The hop gradient is written six levels deep. -/
theorem nestsAtMost_hopGradient (source : String) : NestsAtMost 6 (Library.hopGradient source) := by
  have hfurther : NestsAtMost 3 (Library.plus (.nbr (.var "d")) (.number (.ofNat 1))) := by
    refine .call ?_ .add
    rw [List.forall_mem_cons, List.forall_mem_singleton]
    exact ⟨(NestsAtMost.var "d").nbr, (NestsAtMost.literal _).mono (by decide)⟩
  have hnearest : NestsAtMost 4 (.foldPlus Library.infinity (.literal (.builtin .min))
      (Library.plus (.nbr (.var "d")) (.number (.ofNat 1)))) :=
    .neighborFold ((NestsAtMost.literal _).mono (by decide)) hfurther .min false
  have hchosen : ∀ away, NestsAtMost 4 away →
      NestsAtMost 5 (.call .mux [.sense source, .number (.ofNat 0), away]) := by
    intro away haway
    refine .call ?_ .mux
    rw [List.forall_mem_cons, List.forall_mem_cons, List.forall_mem_singleton]
    exact ⟨(NestsAtMost.sense source).mono (by decide), (NestsAtMost.literal _).mono (by decide),
      haway⟩
  exact .rep (hchosen _ ((NestsAtMost.literal _).mono (by decide))) (hchosen _ hnearest) "d"

end FieldCalculus.Eval
