import FieldCalculus.Proofs.Alignment
import FieldCalculus.Proofs.Relocation

/-!
What a branch hides. Devices that decide a branch differently do not take part in each other's
folds on its sides, whatever these sides are: the export of one has a value at no `foldHood` slot
that the other one opens there. The condition must not fold itself, since a fold in front of the
branch is common to both sides.
-/

namespace FieldCalculus

/-! ## Programs without folds -/

mutual

/-- Evaluation meets no fold: the program has none, and it applies built-ins only. The body of a
lambda does not count, as nothing applies it. -/
def Expr.isPointwise : Expr → Bool
  | .literal _ | .var _ | .sense _ | .neighborSense _ | .selfId | .lambda _ _ _ => true
  | .apply (.literal (.builtin _)) args => Expr.isPointwiseAll args
  | .apply _ _ | .neighborFold _ _ _ _ => false
  | .letIn _ value body => Expr.isPointwise value && Expr.isPointwise body
  | .branch condition thenSide elseSide =>
    Expr.isPointwise condition && Expr.isPointwise thenSide && Expr.isPointwise elseSide
  | .rep init _ update => Expr.isPointwise init && Expr.isPointwise update
  | .nbr body => Expr.isPointwise body

def Expr.isPointwiseAll : List Expr → Bool
  | [] => true
  | e :: rest => Expr.isPointwise e && Expr.isPointwiseAll rest

end

namespace Expr

theorem isPointwiseAll_iff {es : List Expr} : isPointwiseAll es ↔ ∀ e ∈ es, e.isPointwise := by
  induction es with
  | nil => simp [isPointwiseAll]
  | cons head rest ih => simp [isPointwiseAll, ih]

/-- A program without folds applies what it names as a built-in. -/
theorem exists_builtin_of_isPointwise {function : Expr} {args : List Expr}
    (h : (apply function args).isPointwise) :
    ∃ b, function = .literal (.builtin b) ∧ ∀ e ∈ args, e.isPointwise := by
  unfold isPointwise at h
  split at h <;> simp_all [isPointwiseAll_iff]

end Expr

/-! ## Slots of programs without folds -/

namespace Eval

variable {recur : Expr → Context → Eval Value} {ctx : Context} {slots : Nat}

/-- An entry that no fold looks for. -/
def NotAtFold (put : Path × Value) : Prop := ¬Path.endsIn put.1 .foldHood

theorem notAtFold_slot {path : Path} {slot : Slot} {value : Value} (h : slot.kind ≠ .foldHood) :
    NotAtFold (path.push slot, value) := by
  simp [NotAtFold, Path.endsIn_push, h]

/-- A program without folds opens as many slots as are written on its level, whatever it meets
with, and records nothing that a fold looks for. -/
def MeetsPointwise (recur : Expr → Context → Eval Value) : Prop :=
  ∀ {e : Expr} (ctx : Context) (slots : Nat), e.isPointwise →
    (recur e ctx).Meets slots (slots + e.openers.length) NotAtFold fun _ => True

section Pointwise

variable (hrecur : MeetsPointwise recur)

include hrecur

theorem meets_evalAll_pointwise {es : List Expr} (hes : ∀ e ∈ es, e.isPointwise) :
    (evalAll recur ctx es).Meets slots (slots + (Expr.openersAll es).length) NotAtFold
      fun _ => True := by
  induction es generalizing slots with
  | nil => exact meets_pure trivial
  | cons e rest ih =>
      obtain ⟨he, hrest⟩ := List.forall_mem_cons.mp hes
      rw [evalAll, Expr.openersAll, List.length_append, ← Nat.add_assoc]
      refine (hrecur ctx slots he).bind fun v _ => ?_
      exact (ih hrest).bind fun vs _ => meets_pure trivial

theorem meets_step_pointwise (hliteral : KeepsLiterals recur) {e : Expr} (he : e.isPointwise) :
    (step recur e ctx).Meets slots (slots + e.openers.length) NotAtFold fun _ => True := by
  cases e with
  | literal v => exact meets_pure trivial
  | var name => exact meets_located fun _ _ => trivial
  | sense name => exact meets_located fun _ _ => trivial
  | neighborSense name => exact meets_located fun _ _ => trivial
  | selfId => exact meets_pure trivial
  | lambda code params body => exact meets_pure trivial
  | apply function args =>
      obtain ⟨b, rfl, hargs⟩ := Expr.exists_builtin_of_isPointwise he
      rw [step_apply, Expr.openers]
      refine (hliteral _ ctx slots _).bind ?_
      rintro _ rfl
      refine (meets_evalAll_pointwise hrecur hargs).bind fun vs _ => ?_
      exact meets_located fun _ _ => trivial
  | letIn name value body =>
      simp only [Expr.isPointwise, Bool.and_eq_true] at he
      rw [step_letIn, Expr.openers, List.length_append, ← Nat.add_assoc]
      exact (hrecur ctx slots he.1).bind fun v _ => hrecur (ctx.bind name v) _ he.2
  | branch condition thenSide elseSide =>
      simp only [Expr.isPointwise, Bool.and_eq_true] at he
      obtain ⟨⟨hcondition, hthen⟩, helse⟩ := he
      rw [step_branch, Expr.openers, List.length_append, List.length_singleton, ← Nat.add_assoc]
      refine (hrecur ctx slots hcondition).bind fun c _ => ?_
      refine (meets_located fun _ _ => trivial).bind fun taken _ => ?_
      refine meets_nextSlot.bind fun index _ => ?_
      have hside : (if taken then thenSide else elseSide).isPointwise := by
        cases taken
        · exact helse
        · exact hthen
      refine (hrecur _ 0 hside).inside.bind fun v _ => ?_
      exact meets_record_return (fun _ => notAtFold_slot (by simp [Slot.kind])) trivial
  | rep init name update =>
      simp only [Expr.isPointwise, Bool.and_eq_true] at he
      rw [step_rep, Expr.openers, List.length_singleton]
      refine meets_nextSlot.bind fun index _ => ?_
      have hvalue : (repAt recur init name update (ctx.nest (.rep index))).Meets (slots + 1)
          (slots + 1) NotAtFold fun _ => True := by
        rw [repAt]
        split
        · exact (hrecur _ 0 he.2).inside
        · exact (hrecur _ 0 he.1).inside
      refine hvalue.bind fun v _ => ?_
      exact meets_record_return (fun _ => notAtFold_slot (by simp [Slot.kind])) trivial
  | nbr body =>
      rw [step_nbr, Expr.openers, List.length_singleton]
      refine meets_nextSlot.bind fun index _ => ?_
      cases ctx.focus with
      | neighbor id exported =>
          rw [nbrAt]
          split
          · exact meets_pure trivial
          · exact meets_absent
      | self =>
          rw [nbrAt]
          refine (hrecur (e := body) _ 0 he).inside.bind fun v _ => ?_
          exact meets_record_return (fun _ => notAtFold_slot (by simp [Slot.kind])) trivial
  | neighborFold initial accumulator generator includeSelf => cases he

omit hrecur

end Pointwise

theorem eval_meetsPointwise (depth : Nat) : MeetsPointwise (eval depth) := by
  induction depth with
  | zero => exact fun _ _ _ => meets_fail
  | succ depth ih =>
      exact fun _ _ he => meets_step_pointwise ih (eval_keepsLiterals depth) he

end Eval

/-! ## Positions from which folds are alike -/

/-- The other devices whose export holds a value at the path. -/
def RoundInputs.alignedAt (inputs : RoundInputs) (path : Path) : List (DeviceId × Export) :=
  inputs.neighbors.entries.filter fun (id, exported) =>
    id ≠ inputs.device && exported.contains path

/-- The inputs differ in the neighbors only, and every fold below `base` finds the same ones. -/
structure RoundInputs.FoldsAlike (base : Path) (a b : RoundInputs) : Prop where
  device : a.device = b.device
  sensors : a.sensors = b.sensors
  state : a.state = b.state
  aligned : ∀ path, Path.Below base path → Path.endsIn path .foldHood →
    a.alignedAt path = b.alignedAt path

/-- The same position in two rounds in which folds below `base` are alike. -/
structure Context.FoldsAlike (base : Path) (a b : Context) : Prop where
  inputs : a.inputs.FoldsAlike base b.inputs
  path : a.path = b.path
  env : a.env = b.env
  focus : a.focus = b.focus
  recording : a.recording = b.recording

namespace Context.FoldsAlike

variable {base : Path} {a b : Context}

theorem nest (h : a.FoldsAlike base b) (slot : Slot) :
    (a.nest slot).FoldsAlike base (b.nest slot) :=
  { h with path := congrArg (fun path => Path.push path slot) h.path }

/-- The same, at another place. -/
theorem moveTo (h : a.FoldsAlike base b) (path : Path) :
    { a with path := path }.FoldsAlike base { b with path := path } :=
  { h with path := rfl }

theorem bind (h : a.FoldsAlike base b) (name : String) (value : Value) :
    (a.bind name value).FoldsAlike base (b.bind name value) :=
  { h with env := congrArg (Entries.insert name value) h.env }

theorem withEnv (h : a.FoldsAlike base b) (env : Env) :
    (a.withEnv env).FoldsAlike base (b.withEnv env) :=
  { h with env := rfl }

theorem toSelf (h : a.FoldsAlike base b) : a.toSelf.FoldsAlike base b.toSelf :=
  { h with focus := rfl }

theorem focusedOn (h : a.FoldsAlike base b) (id : DeviceId) (exported : Export) :
    (a.focusedOn id exported).FoldsAlike base (b.focusedOn id exported) :=
  { h with focus := rfl, recording := rfl }

theorem silent (h : a.FoldsAlike base b) : a.silent.FoldsAlike base b.silent :=
  { h with recording := rfl }

theorem lookup (h : a.FoldsAlike base b) (name : String) : a.lookup name = b.lookup name := by
  rw [Context.lookup, Context.lookup, h.env]

theorem sense (h : a.FoldsAlike base b) (name : String) : a.sense name = b.sense name := by
  rw [Context.sense, Context.sense, h.inputs.sensors]

theorem neighborSense (h : a.FoldsAlike base b) (name : String) :
    a.neighborSense name = b.neighborSense name := by
  rw [Context.neighborSense, Context.neighborSense, target, target, h.inputs.sensors, h.focus,
    h.inputs.device]

theorem remembered (h : a.FoldsAlike base b) : a.remembered = b.remembered := by
  rw [Context.remembered, Context.remembered, h.path, h.inputs.state]

theorem alignedNeighbors (h : a.FoldsAlike base b) (hinside : base <+: a.path) (index : UInt32) :
    (a.nest (.foldHood index)).alignedNeighbors = (b.nest (.foldHood index)).alignedNeighbors := by
  have hends : Path.endsIn (a.path.push (.foldHood index)) .foldHood := by
    simp [Path.endsIn_push, Slot.kind]
  have haligned := h.inputs.aligned _ (Path.below_push hinside (.foldHood index)) hends
  unfold RoundInputs.alignedAt at haligned
  unfold Context.alignedNeighbors Context.nest
  rw [← h.path]
  exact haligned

end Context.FoldsAlike

/-- The program cannot tell the positions apart: either it has no folds, or all that it opens lies
below `base`. -/
structure Expr.Blind (base : Path) (e : Expr) (a b : Context) : Prop where
  alike : a.FoldsAlike base b
  sees : e.isPointwise ∨ base <+: a.path

theorem Expr.Blind.of_inside {base : Path} {e : Expr} {a b : Context} (h : a.FoldsAlike base b)
    (hinside : base <+: a.path) : e.Blind base a b :=
  ⟨h, Or.inr hinside⟩

namespace Eval

variable {base : Path} {a b : Context} {recur : Expr → Context → Eval Value}

theorem fail_foldsAlike {α : Type} (h : a.FoldsAlike base b) (fault : Fault) :
    (fail a fault : Eval α) = fail b fault := by
  unfold fail
  rw [h.path]

theorem located_foldsAlike {α : Type} (h : a.FoldsAlike base b) (result : Except Fault α) :
    located a result = located b result := by
  cases result with
  | ok value => rfl
  | error fault => exact fail_foldsAlike h fault

theorem record_foldsAlike (h : a.FoldsAlike base b) (value : Value) :
    record a value = record b value := by
  unfold record
  rw [h.path, h.recording]

section Blind

variable (hrecur : ∀ {e : Expr} {a b : Context}, e.Blind base a b → recur e a = recur e b)

include hrecur

theorem evalAll_blind {es : List Expr} (h : ∀ e ∈ es, e.Blind base a b) :
    evalAll recur a es = evalAll recur b es := by
  induction es with
  | nil => rfl
  | cons e rest ih =>
      obtain ⟨he, hrest⟩ := List.forall_mem_cons.mp h
      rw [evalAll, evalAll, hrecur he, ih hrest]

theorem applyTo_blind (h : a.FoldsAlike base b) (hinside : base <+: a.path) (function : Value)
    (args : List Value) : applyTo recur function args a = applyTo recur function args b := by
  cases function with
  | builtin op => exact located_foldsAlike h _
  | closure code params body env =>
      rw [applyTo_closure, applyTo_closure, fail_foldsAlike h]
      congr 1
      refine bind_congr fun index => ?_
      have hbelow : base <+: (a.nest (.funCall index code)).path := (Path.below_push hinside _).1
      have hclosure := (h.nest (.funCall index code)).withEnv
        (Entries.insertAll env (params.zip args))
      rw [hrecur (.of_inside hclosure hbelow)]
  | _ => exact fail_foldsAlike h _

theorem foldNeighbors_blind (h : a.FoldsAlike base b) (hinside : base <+: a.path)
    (generator : Expr) (combine : Value) (neighbors : List (DeviceId × Export)) (acc : Value) :
    foldNeighbors recur generator combine a neighbors acc =
      foldNeighbors recur generator combine b neighbors acc := by
  induction neighbors generalizing acc with
  | nil => rfl
  | cons neighbor rest ih =>
      obtain ⟨id, exported⟩ := neighbor
      rw [foldNeighbors_cons, foldNeighbors_cons,
        hrecur (.of_inside (h.toSelf.focusedOn id exported) hinside)]
      refine bind_congr fun contribution => ?_
      cases contribution with
      | none => exact ih acc
      | some value =>
          dsimp only
          rw [applyTo_blind hrecur h.silent hinside]
          exact bind_congr fun acc => ih acc

theorem fold_blind (h : a.FoldsAlike base b) (hinside : base <+: a.path) (index : UInt32)
    (initial combine : Value) (generator : Expr) (includeSelf : Bool) :
    fold recur initial combine generator includeSelf (a.nest (.foldHood index)) =
      fold recur initial combine generator includeSelf (b.nest (.foldHood index)) := by
  have hinner := h.nest (.foldHood index)
  have hbelow : base <+: (a.nest (.foldHood index)).path := (Path.below_push hinside _).1
  rw [fold_eq, fold_eq, hrecur (.of_inside hinner.toSelf hbelow)]
  refine bind_congr fun own => ?_
  rw [foldStart, foldStart, applyTo_blind hrecur hinner.silent hbelow]
  refine bind_congr fun start => ?_
  rw [h.alignedNeighbors hinside, foldNeighbors_blind hrecur hinner hbelow]
  refine bind_congr fun result => ?_
  rw [record_foldsAlike hinner]

theorem step_blind (hliteral : KeepsLiterals recur) {e : Expr} (h : e.Blind base a b) :
    step recur e a = step recur e b := by
  obtain ⟨halike, hsees⟩ := h
  cases e with
  | literal v => rfl
  | var name => rw [step_var, step_var, halike.lookup, located_foldsAlike halike]
  | sense name => rw [step_sense, step_sense, halike.sense, located_foldsAlike halike]
  | neighborSense name =>
      rw [step_neighborSense, step_neighborSense, halike.neighborSense, located_foldsAlike halike]
  | selfId => rw [step_selfId, step_selfId, halike.inputs.device]
  | lambda code params body => rw [step_lambda, step_lambda, halike.env]
  | apply function args =>
      rw [step_apply, step_apply]
      rcases hsees with hpointwise | hinside
      · obtain ⟨op, rfl, hargs⟩ := Expr.exists_builtin_of_isPointwise hpointwise
        rw [hrecur ⟨halike, Or.inl rfl⟩,
          evalAll_blind hrecur fun e he => ⟨halike, Or.inl (hargs e he)⟩]
        funext slots
        -- What is applied is the built-in itself, and so no body is entered.
        refine (hliteral _ _ slots fun _ => True).bind_congr ?_
        rintro _ rfl
        have hbuiltin : ∀ vs, applyTo recur (.builtin op) vs a = applyTo recur (.builtin op) vs b :=
          fun vs => located_foldsAlike halike (op.call vs)
        simp only [hbuiltin]
      · rw [hrecur (.of_inside halike hinside),
          evalAll_blind hrecur fun e _ => .of_inside halike hinside]
        refine bind_congr fun f => bind_congr fun vs => ?_
        exact applyTo_blind hrecur halike hinside f vs
  | letIn name value body =>
      simp only [Expr.isPointwise, Bool.and_eq_true] at hsees
      rw [step_letIn, step_letIn, hrecur ⟨halike, hsees.imp_left And.left⟩]
      refine bind_congr fun v => ?_
      exact hrecur ⟨halike.bind name v, hsees.imp_left And.right⟩
  | branch condition thenSide elseSide =>
      simp only [Expr.isPointwise, Bool.and_eq_true] at hsees
      rw [step_branch, step_branch, hrecur ⟨halike, hsees.imp_left fun h => h.1.1⟩]
      refine bind_congr fun c => ?_
      rw [located_foldsAlike halike]
      refine bind_congr fun taken => bind_congr fun index => ?_
      have hside : (if taken then thenSide else elseSide).Blind base
          (a.nest (.branch index taken)) (b.nest (.branch index taken)) := by
        refine ⟨halike.nest _, hsees.imp ?_ fun hinside => (Path.below_push hinside _).1⟩
        cases taken
        · exact fun h => h.2
        · exact fun h => h.1.2
      rw [hrecur hside]
      refine bind_congr fun v => ?_
      rw [record_foldsAlike (halike.nest _)]
  | rep init name update =>
      simp only [Expr.isPointwise, Bool.and_eq_true] at hsees
      rw [step_rep, step_rep]
      refine bind_congr fun index => ?_
      have hinner := halike.nest (.rep index)
      have hbelow : (init.isPointwise ∧ update.isPointwise) ∨ base <+: (a.nest (.rep index)).path :=
        hsees.imp_right fun hinside => (Path.below_push hinside _).1
      rw [repAt, repAt, hinner.remembered, hrecur ⟨hinner, hbelow.imp_left And.left⟩]
      have hupdate : ∀ previous, recur update ((a.nest (.rep index)).bind name previous) =
          recur update ((b.nest (.rep index)).bind name previous) := by
        intro previous
        exact hrecur ⟨hinner.bind name previous, hbelow.imp_left And.right⟩
      simp only [hupdate, record_foldsAlike hinner]
  | nbr body =>
      rw [step_nbr, step_nbr, halike.focus]
      refine bind_congr fun index => ?_
      have hinner := halike.nest (.nbr index)
      have hbody : body.Blind base (a.nest (.nbr index)) (b.nest (.nbr index)) :=
        ⟨hinner, hsees.imp_right fun hinside => (Path.below_push hinside _).1⟩
      cases b.focus with
      | neighbor id exported => rw [nbrAt, nbrAt, hinner.path]
      | self =>
          rw [nbrAt, nbrAt, hrecur hbody]
          refine bind_congr fun v => ?_
          rw [record_foldsAlike hinner]
  | neighborFold initial accumulator generator includeSelf =>
      have hinside : base <+: a.path := hsees.resolve_left Bool.false_ne_true
      rw [step_neighborFold, step_neighborFold, hrecur (.of_inside halike hinside),
        hrecur (.of_inside halike hinside)]
      refine bind_congr fun start => bind_congr fun combine => bind_congr fun index => ?_
      exact fold_blind hrecur halike hinside index start combine generator includeSelf

omit hrecur

end Blind

/-- A program evaluates alike at positions that it cannot tell apart. -/
theorem eval_blind (depth : Nat) {e : Expr} (h : e.Blind base a b) :
    eval depth e a = eval depth e b := by
  induction depth generalizing e a b with
  | zero => exact fail_foldsAlike h.alike _
  | succ depth ih => exact step_blind ih (eval_keepsLiterals depth) h

end Eval

/-! ## The two sides of a branch -/

/-- As the condition of a branch, the program takes this side. -/
def Expr.Decides (condition : Expr) (inputs : RoundInputs) (taken : Bool) : Prop :=
  ∃ y, Eval.eval (depthLimit - 1) condition (.root inputs) 0 = .ok y ∧ y.value = .bool taken

/-- Where the sides of a branch stand whose condition opens as many slots as are written on its
level. -/
def Expr.sideOf (condition : Expr) (taken : Bool) : Path :=
  [.branch (UInt32.ofNat condition.openers.length) taken]

namespace Divergence

variable {condition thenSide elseSide : Expr} {inputs : RoundInputs} {taken : Bool}

/-- A condition without folds that is decided has opened the slots written on its level, and has
recorded nothing that a fold looks for. -/
theorem exists_yield (hpointwise : condition.isPointwise)
    (hdecides : condition.Decides inputs taken) :
    ∃ y, Eval.eval (depthLimit - 1) condition (.root inputs) 0 = .ok y ∧
      y.value = .bool taken ∧ y.slots = condition.openers.length ∧
      ∀ put ∈ y.puts, Eval.NotAtFold put := by
  obtain ⟨y, hy, htaken⟩ := hdecides
  obtain ⟨-, hslots, hputs⟩ := Eval.eval_meetsPointwise (depthLimit - 1) (.root inputs) 0 hpointwise
    y hy
  rw [Nat.zero_add] at hslots
  exact ⟨y, hy, htaken, hslots, hputs⟩

/-- The branch is the side taken, evaluated where its sides stand. -/
theorem eval_branch (thenSide elseSide : Expr) {y : Yield Value}
    (hy : Eval.eval (depthLimit - 1) condition (.root inputs) 0 = .ok y)
    (htaken : y.value = .bool taken) (hslots : y.slots = condition.openers.length) :
    Eval.eval depthLimit (.branch condition thenSide elseSide) (.root inputs) 0 =
      (Eval.eval (depthLimit - 1) (if taken then thenSide else elseSide)
        { Context.root inputs with path := condition.sideOf taken } 0).map fun z =>
          ⟨z.value, condition.openers.length + 1,
            y.puts ++ (z.puts ++ [(condition.sideOf taken, z.value)])⟩ := by
  have hrun := Eval.eval_branch_run thenSide elseSide hy htaken
  rw [hslots] at hrun
  exact hrun

/-- The export of a device that took one side holds nothing that a fold on the other side looks
for. -/
theorem not_contains_fold (hpointwise : condition.isPointwise)
    (hdecides : condition.Decides inputs !taken) {sent : Evaluation}
    (hsent : evaluate (.branch condition thenSide elseSide) inputs = .ok sent) {path : Path}
    (hbelow : Path.Below (condition.sideOf taken) path) (hends : Path.endsIn path .foldHood) :
    sent.exported.contains path = false := by
  obtain ⟨y, hy, htaken, hslots, hbefore⟩ := exists_yield hpointwise hdecides
  have hputs := Eval.eval_puts (depthLimit - 1) (if !taken then thenSide else elseSide)
    { Context.root inputs with path := condition.sideOf !taken } 0
  have hroot : path ≠ Path.root := by
    rintro rfl
    cases hends
  have hapart : ¬condition.sideOf (!taken) <+: path := by
    intro hother
    obtain ⟨rest, rfl⟩ := hbelow.1
    simp [Expr.sideOf] at hother
  rw [evaluate, evaluateIn, eval_branch thenSide elseSide hy htaken hslots] at hsent
  cases hside : Eval.eval (depthLimit - 1) (if !taken then thenSide else elseSide)
      { Context.root inputs with path := condition.sideOf !taken } 0 with
  | error interrupt =>
      rw [hside] at hsent
      cases interrupt <;> cases hsent
  | ok z =>
      rw [hside] at hsent
      cases hsent
      rw [Bool.eq_false_iff]
      intro hcontains
      obtain ⟨value, hvalue⟩ := Option.isSome_iff_exists.mp hcontains
      rcases List.mem_append.mp (Export.mem_of_get?_ofPuts hroot hvalue) with hfirst | hrest
      · exact hbefore _ hfirst hends
      · rcases List.mem_append.mp hrest with hinside | hlast
        · exact hapart (hputs z hside _ hinside).1
        · have hplace : path = condition.sideOf !taken :=
            congrArg Prod.fst (List.mem_singleton.mp hlast)
          exact hapart (hplace ▸ List.prefix_rfl)

/-- Without a neighbor that takes part in no fold below `base`, the folds there are the same. -/
theorem foldsAlike_erase {base : Path} {n : DeviceId} {exported : Export}
    (hn : inputs.neighbors.find? n = some exported)
    (habsent : ∀ path, Path.Below base path → Path.endsIn path .foldHood →
      exported.contains path = false) :
    { inputs with neighbors := inputs.neighbors.erase n }.FoldsAlike base inputs := by
  refine ⟨rfl, rfl, rfl, ?_⟩
  intro path hbelow hends
  have hentries : (inputs.neighbors.erase n).entries =
      inputs.neighbors.entries.filter fun entry => compare n entry.1 != .eq := rfl
  unfold RoundInputs.alignedAt
  rw [hentries, List.filter_filter]
  refine List.filter_congr ?_
  intro entry hentry
  by_cases hid : entry.1 = n
  · have hfound : inputs.neighbors.find? entry.1 = some entry.2 :=
      Dict.find?_eq_some_iff.mpr hentry
    rw [hid, hn, Option.some.injEq] at hfound
    simp [hid, ← hfound, habsent path hbelow hends]
  · simp [Ne.symm hid]

end Divergence

/-- Devices on different sides of a branch are invisible to each other. If the condition folds
nothing, then a neighbor that took the other side of the branch, whatever else it met with, makes
no difference: without it the round comes to the same value and export, or to the same error. -/
theorem diverging_neighbor_invisible (condition thenSide elseSide : Expr)
    (hpointwise : condition.isPointwise) (here there : RoundInputs) (taken : Bool)
    (hhere : condition.Decides here taken) (hthere : condition.Decides there !taken)
    (sent : Evaluation) (hsent : evaluate (.branch condition thenSide elseSide) there = .ok sent)
    (n : DeviceId) (hn : here.neighbors.find? n = some sent.exported) :
    evaluate (.branch condition thenSide elseSide)
        { here with neighbors := here.neighbors.erase n } =
      evaluate (.branch condition thenSide elseSide) here := by
  have hfolds := Divergence.foldsAlike_erase hn fun path hbelow hends =>
    Divergence.not_contains_fold hpointwise hthere hsent hbelow hends
  have hroot : (Context.root { here with neighbors := here.neighbors.erase n }).FoldsAlike
      (condition.sideOf taken) (.root here) := ⟨hfolds, rfl, rfl, rfl, rfl⟩
  -- The condition does not see the neighbor, as it does not fold, ...
  have hcondition := Eval.eval_blind (depthLimit - 1) ⟨hroot, Or.inl hpointwise⟩
  -- ... and the side does not, as it folds only where the neighbor has no value.
  have hside := Eval.eval_blind (depthLimit - 1) (e := if taken then thenSide else elseSide)
    (.of_inside (hroot.moveTo (condition.sideOf taken)) List.prefix_rfl)
  obtain ⟨y, hy, htaken, hslots, -⟩ := Divergence.exists_yield hpointwise hhere
  have hwithout := (congrFun hcondition 0).trans hy
  rw [evaluate, evaluate, evaluateIn, evaluateIn,
    Divergence.eval_branch thenSide elseSide hwithout htaken hslots,
    Divergence.eval_branch thenSide elseSide hy htaken hslots, hside]

/-- Both sides combine what the neighbors tell on them. The condition takes a slot of its own. -/
def foldsApart : Expr :=
  .branch (.nbr (.sense "flag"))
    (.foldPlus (.literal (.bool false)) (.literal (.builtin .or)) (.nbr (.sense "v")))
    (.foldPlus (.literal (.bool true)) (.literal (.builtin .and)) (.nbr (.sense "v")))

/-- What a device meets with that reads `flag`. -/
def flagged (name : String) (flag : Bool) (neighbors : NeighborSnapshot) : RoundInputs :=
  ⟨⟨name⟩, (SensorTable.empty.set "flag" (.bool flag) |>.set "v" (.bool flag)).sensors, .empty,
    neighbors⟩

/-- What a device alone makes of the folds on the side of its flag. -/
def toldApart (flag : Bool) : Evaluation :=
  ⟨.bool !flag, .ofPuts [([.nbr 0], .bool flag),
    ([.branch 1 flag, .foldHood 0, .nbr 0], .bool flag),
    ([.branch 1 flag, .foldHood 0], .bool !flag), ([.branch 1 flag], .bool !flag)] (.bool !flag)⟩

/-- The device `c` is heard on the side of `a`; without `b`, on the other side, nothing changes. -/
theorem foldsApart_without_b :
    evaluate foldsApart (flagged "a" true
        ((Dict.ofList [(⟨"b"⟩, (toldApart false).exported),
          (⟨"c"⟩, (toldApart true).exported)]).erase ⟨"b"⟩)) =
      evaluate foldsApart (flagged "a" true
        (Dict.ofList [(⟨"b"⟩, (toldApart false).exported),
          (⟨"c"⟩, (toldApart true).exported)])) :=
  diverging_neighbor_invisible _ _ _ rfl
    (flagged "a" true (Dict.ofList [(⟨"b"⟩, (toldApart false).exported),
      (⟨"c"⟩, (toldApart true).exported)]))
    (flagged "b" false .empty) true ⟨_, rfl, rfl⟩ ⟨_, rfl, rfl⟩ (toldApart false) rfl ⟨"b"⟩ rfl

end FieldCalculus
