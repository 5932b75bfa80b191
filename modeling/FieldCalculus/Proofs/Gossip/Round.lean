import FieldCalculus.Proofs.HopGradient.Round
import FieldCalculus.Proofs.Order

/-!
The gossip of the maximum round by round. A device tells its neighbors the value of its last
round and yields the greatest of its own reading, that value and what the neighbors told; it
takes part from its second round on.
-/

namespace FieldCalculus.Gossip

open HopGradient (valuePath foldPath toldPath)

/-- What a device sends after its first round. -/
def firstExport (value : Number) : Export := .ofPuts [(valuePath, .number value)] (.number value)

/-- What a device sends after a later round. -/
def laterExport (value told : Number) : Export :=
  .ofPuts [(toldPath, .number told), (foldPath, .number value), (valuePath, .number value)]
    (.number value)

/-! ## The greatest of many -/

/-- The number that a device finds that read `own`, had `last` and was told the rest. -/
def greatest (own last : Number) (told : List Number) : Number :=
  told.foldl Number.greater (own.greater last)

section Greatest

variable {own last : Number} {told : List Number}

theorem greatest_concat (number : Number) :
    greatest own last (told ++ [number]) = (greatest own last told).greater number :=
  List.foldl_concat ..

theorem greatest_mem (own last : Number) (told : List Number) :
    greatest own last told ∈ own :: last :: told := by
  induction told using List.reverseRecOn with
  | nil =>
      rcases own.greater_eq last with heq | heq
      · exact List.mem_cons.mpr (Or.inl heq)
      · exact List.mem_cons_of_mem _ (List.mem_singleton.mpr heq)
  | append_singleton told number ih =>
      rw [greatest_concat, ← List.cons_append, ← List.cons_append]
      rcases (greatest own last told).greater_eq number with heq | heq <;> rw [heq]
      · exact List.mem_append_left _ ih
      · exact List.mem_append_right _ (List.mem_singleton_self _)

theorem rank_le_greatest {number : Number} (h : number ∈ own :: last :: told) :
    number.rank.toNat ≤ (greatest own last told).rank.toNat := by
  induction told using List.reverseRecOn with
  | nil =>
      change _ ≤ (own.greater last).rank.toNat
      rw [Number.toNat_rank_greater]
      simp only [List.mem_cons, List.not_mem_nil, or_false] at h
      rcases h with rfl | rfl
      · exact le_max_left _ _
      · exact le_max_right _ _
  | append_singleton told latest ih =>
      rw [greatest_concat, Number.toNat_rank_greater]
      rw [← List.cons_append, ← List.cons_append] at h
      rcases List.mem_append.mp h with hbefore | hlatest
      · exact (ih hbefore).trans (le_max_left _ _)
      · rw [List.mem_singleton.mp hlatest]
        exact le_max_right _ _

end Greatest

/-! ## Whole rounds -/

section Round

open Eval

variable {ctx : Context} {inputs : RoundInputs} {sensor : String} {own last : Number}
  {told : List Number}

/-- What a device with a value goes on with. -/
def gossiped : Expr := .fold (.var "local") (.literal (.builtin .max)) (.nbr (.var "m"))

/-- The fold of a device that read `own`, tells `last` and hears its neighbors. -/
theorem eval_gossiped (depth : Nat) (hrecording : ctx.recording = true)
    (hown : ctx.lookup "local" = .ok (.number own)) (hlast : ctx.lookup "m" = .ok (.number last))
    (htold : List.Forall₂ (fun entry number =>
      entry.2.get? ((ctx.path.push (.foldHood 0)).push (.nbr 0)) = some (.number number))
      (ctx.nest (.foldHood 0)).alignedNeighbors told) :
    eval (depth + 3) gossiped ctx 0 = .ok ⟨.number (greatest own last told), 1,
      [((ctx.path.push (.foldHood 0)).push (.nbr 0), .number last),
        (ctx.path.push (.foldHood 0), .number (greatest own last told))]⟩ := by
  have hinitial : eval (depth + 2) (.var "local") ctx 0 = .ok ⟨.number own, 0, []⟩ :=
    eval_var_ok hown
  have hcombine : eval (depth + 2) (.literal (.builtin .max)) ctx 0 =
      .ok ⟨.builtin .max, 0, []⟩ := rfl
  have hself : eval (depth + 2) (.nbr (.var "m")) (ctx.nest (.foldHood 0)).toSelf 0 =
      .ok ⟨.number last, 1, [((ctx.path.push (.foldHood 0)).push (.nbr 0), .number last)]⟩ := by
    have hvar : eval (depth + 1) (.var "m") ((ctx.nest (.foldHood 0)).toSelf.nest (.nbr 0)) 0 =
        .ok ⟨.number last, 0, []⟩ := eval_var_ok hlast
    have hinner : (ctx.nest (.foldHood 0)).toSelf.recording = true := hrecording
    have htells : eval (depth + 2) (.nbr (.var "m")) (ctx.nest (.foldHood 0)).toSelf 0 = _ :=
      eval_nbr_self_ok rfl hvar
    rw [hinner] at htells
    exact htells
  have hgreater : ∀ a b, ∃ opened, applyTo (eval (depth + 2)) (.builtin .max)
      [.number a, .number b] (ctx.nest (.foldHood 0)).silent 0 =
        .ok ⟨.number (a.greater b), opened, []⟩ :=
    fun a b => ⟨0, applyTo_builtin_ok (Number.call_max a b)⟩
  have hstart : foldStart (eval (depth + 2)) (ctx.nest (.foldHood 0)) (.builtin .max)
      (.number own) (.number last) true 1 = .ok ⟨.number (own.greater last), 1, []⟩ := by
    obtain ⟨_, hfirst⟩ := hgreater own last
    exact inside_of_ok hfirst 1
  have hheard : List.Forall₂ (fun entry number => ∃ opened, eval (depth + 2) (.nbr (.var "m"))
      ((ctx.nest (.foldHood 0)).toSelf.focusedOn entry.1 entry.2) 0 =
        .ok ⟨.number number, opened, []⟩) (ctx.nest (.foldHood 0)).alignedNeighbors told :=
    htold.imp fun _ _ hentry => ⟨1, eval_nbr_neighbor_ok rfl hentry⟩
  have hfold := eval_neighborFold_ok hinitial hcombine hself hstart
    (foldNeighbors_ok hgreater hheard (own.greater last))
  rw [hrecording] at hfold
  exact hfold

/-- What a round yields and sends, given its reading and what stands behind its `rep` slot. -/
theorem evaluate_of_repAt (hreads : inputs.sensors.sense sensor = some (.number own)) (v : Value)
    (puts : List (Path × Value))
    (hvalue : repAt (eval 1048574) (.var "local") "m" gossiped
      (((Context.root inputs).bind "local" (.number own)).nest (.rep 0)) 1 = .ok ⟨v, 1, puts⟩) :
    evaluate (Library.gossipMax (.sense sensor)) inputs =
      .ok ⟨v, .ofPuts (puts ++ [(valuePath, v)]) v⟩ := by
  have hdepth : depthLimit = 1048574 + 1 + 1 := rfl
  have hown : eval (1048574 + 1) (.sense sensor) (.root inputs) 0 =
      .ok ⟨.number own, 0, []⟩ := by
    have hinputs : (Context.root inputs).inputs = inputs := rfl
    change located _ ((Context.root inputs).sense sensor) 0 = _
    rw [Context.sense, hinputs, hreads]
    rfl
  have hrep := eval_rep_ok (y := ⟨v, 1, puts⟩) hvalue
  have heval : eval (1048574 + 1 + 1) (Library.gossipMax (.sense sensor)) (.root inputs) 0 =
      .ok ⟨v, 1, puts ++ [(valuePath, v)]⟩ := by
    change step (eval (1048574 + 1)) (.letIn "local" (.sense sensor)
      (.rep (.var "local") "m" gossiped)) (.root inputs) 0 = _
    rw [step_letIn, bind_run hown, hrep]
    rfl
  rw [evaluate, evaluateIn, hdepth, heval]

theorem evaluate_first (hreads : inputs.sensors.sense sensor = some (.number own))
    (hfresh : inputs.state.get? valuePath = none) :
    evaluate (Library.gossipMax (.sense sensor)) inputs = .ok ⟨.number own, firstExport own⟩ := by
  have hremembered : (((Context.root inputs).bind "local" (.number own)).nest
      (.rep 0)).remembered = none := hfresh
  refine evaluate_of_repAt hreads _ [] ?_
  rw [repAt, hremembered]
  exact inside_of_ok (eval_var_ok rfl) 1

/-- A later round yields the greatest of the reading, the last value and what the neighbors
that take part have told. -/
theorem evaluate_later (hreads : inputs.sensors.sense sensor = some (.number own))
    (hlast : inputs.state.get? valuePath = some (.number last))
    (htold : List.Forall₂ (fun entry number => entry.2.get? toldPath = some (.number number))
      (inputs.neighbors.entries.filter fun entry =>
        entry.1 ≠ inputs.device && entry.2.contains foldPath) told) :
    evaluate (Library.gossipMax (.sense sensor)) inputs =
      .ok ⟨.number (greatest own last told), laterExport (greatest own last told) last⟩ := by
  have hremembered : (((Context.root inputs).bind "local" (.number own)).nest
      (.rep 0)).remembered = some (.number last) := hlast
  have hfold : eval (1048571 + 3) gossiped ((((Context.root inputs).bind "local"
      (.number own)).nest (.rep 0)).bind "m" (.number last)) 0 = _ :=
    eval_gossiped 1048571 rfl rfl rfl htold
  refine evaluate_of_repAt hreads _
    [(toldPath, .number last), (foldPath, .number (greatest own last told))] ?_
  rw [repAt, hremembered]
  exact inside_of_ok hfold 1

end Round

end FieldCalculus.Gossip
