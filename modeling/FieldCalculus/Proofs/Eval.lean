import FieldCalculus.Eval
import FieldCalculus.Proofs.Dict
import Mathlib.Data.List.Basic
import Mathlib.Data.List.Forall2
import Mathlib.Tactic.Choose

/-!
Laws of evaluation: what a finished sequence of computations consists of, and what each
node computes from its parts. Later proofs go by these and leave the definitions closed.
-/

namespace FieldCalculus

namespace Eval

section Sequence

variable {α β : Type}

/-- Stops because the neighbor in focus has no value at `path`. -/
def absent (path : Path) : Eval α := fun _ => .error (.absent path)

theorem pure_run (a : α) (slots : Nat) : (pure a : Eval α) slots = .ok ⟨a, slots, []⟩ := rfl

theorem nextSlot_run (slots : Nat) :
    nextSlot slots = .ok ⟨UInt32.ofNat slots, slots + 1, []⟩ := rfl

theorem record_run (ctx : Context) (value : Value) (slots : Nat) :
    record ctx value slots = .ok ⟨(), slots, if ctx.recording then [(ctx.path, value)] else []⟩ :=
  rfl

/-- A sequence that finishes has finished its first part and then its second. -/
theorem bind_eq_ok {x : Eval α} {f : α → Eval β} {slots : Nat} {z : Yield β}
    (h : (x >>= f) slots = .ok z) :
    ∃ y w, x slots = .ok y ∧ f y.value y.slots = .ok w ∧
      z = ⟨w.value, w.slots, y.puts ++ w.puts⟩ := by
  simp only [bind] at h
  cases hx : x slots with
  | error e =>
      rw [hx] at h
      cases h
  | ok y =>
      simp only [hx] at h
      cases hf : f y.value y.slots with
      | error e =>
          rw [hf] at h
          cases h
      | ok w =>
          simp only [hf, Except.ok.injEq] at h
          exact ⟨y, w, rfl, hf, h.symm⟩

/-- A sequence stops where its first part does or where its second part does. -/
theorem bind_eq_error {x : Eval α} {f : α → Eval β} {slots : Nat} {interrupt : Interrupt}
    (h : (x >>= f) slots = .error interrupt) :
    x slots = .error interrupt ∨ ∃ y, x slots = .ok y ∧ f y.value y.slots = .error interrupt := by
  simp only [bind] at h
  cases hx : x slots with
  | error e =>
      simp only [hx, Except.error.injEq] at h
      exact Or.inl (congrArg Except.error h)
  | ok y =>
      refine Or.inr ⟨y, rfl, ?_⟩
      simp only [hx] at h
      cases hf : f y.value y.slots with
      | error e =>
          simp only [hf, Except.error.injEq] at h
          exact congrArg Except.error h
      | ok w =>
          rw [hf] at h
          cases h

/-- A sequence whose first part finishes goes on with the second. -/
theorem bind_run {x : Eval α} {f : α → Eval β} {slots opened : Nat} {a : α}
    {puts : List (Path × Value)} (hx : x slots = .ok ⟨a, opened, puts⟩) :
    (x >>= f) slots = (f a opened).map fun w => ⟨w.value, w.slots, puts ++ w.puts⟩ := by
  simp only [bind, hx]
  cases f a opened <;> rfl

instance : LawfulMonad Eval := by
  refine LawfulMonad.mk' Eval ?_ ?_ ?_
  · intro α x
    funext slots
    simp only [Functor.map]
    cases x slots with
    | error interrupt => rfl
    | ok y =>
        dsimp only [pure, Function.comp, id]
        rw [List.append_nil]
  · intro α β a f
    funext slots
    rw [bind_run (pure_run a slots)]
    cases f a slots <;> rfl
  · intro α β γ x f g
    funext slots
    simp only [bind]
    cases x slots with
    | error interrupt => rfl
    | ok y =>
        dsimp only
        cases f y.value y.slots with
        | error interrupt => rfl
        | ok z =>
            dsimp only
            cases g z.value z.slots with
            | error interrupt => rfl
            | ok w => simp [List.append_assoc]

theorem inside_eq_ok {x : Eval α} {slots : Nat} {y : Yield α} (h : inside x slots = .ok y) :
    ∃ w, x 0 = .ok w ∧ y = { w with slots := slots } := by
  unfold inside at h
  cases hx : x 0 with
  | error e =>
      rw [hx] at h
      cases h
  | ok w =>
      simp only [hx, Except.ok.injEq] at h
      exact ⟨w, rfl, h.symm⟩

theorem inside_eq_error {x : Eval α} {slots : Nat} {interrupt : Interrupt}
    (h : inside x slots = .error interrupt) : x 0 = .error interrupt := by
  unfold inside at h
  cases hx : x 0 with
  | error e =>
      simp only [hx, Except.error.injEq] at h
      exact congrArg Except.error h
  | ok w =>
      rw [hx] at h
      cases h

theorem inside_of_ok {x : Eval α} {w : Yield α} (hx : x 0 = .ok w) (slots : Nat) :
    inside x slots = .ok { w with slots := slots } := by
  unfold inside
  rw [hx]

/-- A computation whose absence is noticed either lacked a value and recorded nothing, or
finished. -/
theorem present?_eq_ok {x : Eval α} {slots : Nat} {y : Yield (Option α)}
    (h : present? x slots = .ok y) :
    y = ⟨none, slots, []⟩ ∨
      ∃ w, x slots = .ok w ∧ y = ⟨some w.value, w.slots, w.puts⟩ := by
  unfold present? at h
  cases hx : x slots with
  | error e =>
      rw [hx] at h
      cases e with
      | failed _ => cases h
      | absent _ =>
          simp only [Except.ok.injEq] at h
          exact Or.inl h.symm
  | ok w =>
      simp only [hx, Except.ok.injEq] at h
      exact Or.inr ⟨w, rfl, h.symm⟩

theorem present?_eq_error {x : Eval α} {slots : Nat} {interrupt : Interrupt}
    (h : present? x slots = .error interrupt) : x slots = .error interrupt := by
  unfold present? at h
  cases hx : x slots with
  | error e =>
      rw [hx] at h
      cases e with
      | failed _ =>
          cases h
          rfl
      | absent _ => cases h
  | ok w =>
      rw [hx] at h
      cases h

theorem present?_of_ok {x : Eval α} {slots : Nat} {w : Yield α} (hx : x slots = .ok w) :
    present? x slots = .ok ⟨some w.value, w.slots, w.puts⟩ := by
  unfold present?
  rw [hx]

theorem located_eq_ok {ctx : Context} {result : Except Fault α} {slots : Nat} {y : Yield α}
    (h : located ctx result slots = .ok y) : ∃ a, result = .ok a ∧ y = ⟨a, slots, []⟩ := by
  cases result with
  | error fault => cases h
  | ok a =>
      simp only [located, pure_run, Except.ok.injEq] at h
      exact ⟨a, rfl, h.symm⟩

/-! ## Contracts

A contract says what a computation that starts at one count of slots comes to if it
finishes. Contracts of the parts of a sequence give one of the whole. -/

/-- From `start` open slots on, the computation finishes only with `stop` open slots, a
value that satisfies `post`, and recorded entries that are all `good`. -/
def Meets (x : Eval α) (start stop : Nat) (good : Path × Value → Prop) (post : α → Prop) :
    Prop :=
  ∀ y, x start = .ok y → post y.value ∧ y.slots = stop ∧ ∀ put ∈ y.puts, good put

section Contract

variable {start middle stop : Nat} {good : Path × Value → Prop} {post : α → Prop}

theorem meets_pure {a : α} (h : post a) : (pure a : Eval α).Meets start start good post := by
  intro y hy
  rw [pure_run, Except.ok.injEq] at hy
  subst hy
  exact ⟨h, rfl, by simp⟩

theorem Meets.bind {x : Eval α} {f : α → Eval β} {post' : β → Prop}
    (hx : x.Meets start middle good post)
    (hf : ∀ a, post a → (f a).Meets middle stop good post') :
    (x >>= f).Meets start stop good post' := by
  intro z hz
  obtain ⟨y, w, hy, hw, rfl⟩ := bind_eq_ok hz
  obtain ⟨hvalue, rfl, hputs⟩ := hx y hy
  obtain ⟨hvalue', hslots, hputs'⟩ := hf y.value hvalue w hw
  refine ⟨hvalue', hslots, ?_⟩
  intro put hput
  rcases List.mem_append.mp hput with hput | hput
  · exact hputs put hput
  · exact hputs' put hput

/-- How a sequence goes on matters only after what its first part comes to. -/
theorem Meets.bind_congr {x : Eval α} {f g : α → Eval β} (hx : x.Meets start middle good post)
    (h : ∀ a, post a → f a middle = g a middle) : (x >>= f) start = (x >>= g) start := by
  cases hy : x start with
  | error e =>
      have hstops : ∀ k : α → Eval β, (x >>= k) start = .error e := by
        intro k
        simp only [Bind.bind, hy]
      rw [hstops, hstops]
  | ok y =>
      obtain ⟨hvalue, rfl, -⟩ := hx y hy
      rw [bind_run hy, bind_run hy, h _ hvalue]

theorem Meets.mono {x : Eval α} {post' : α → Prop} (hx : x.Meets start stop good post)
    (h : ∀ a, post a → post' a) : x.Meets start stop good post' := by
  intro y hy
  obtain ⟨hvalue, hrest⟩ := hx y hy
  exact ⟨h _ hvalue, hrest⟩

theorem Meets.inside {x : Eval α} (hx : x.Meets 0 stop good post) :
    (inside x).Meets start start good post := by
  intro y hy
  obtain ⟨w, hw, rfl⟩ := inside_eq_ok hy
  obtain ⟨hvalue, -, hputs⟩ := hx w hw
  exact ⟨hvalue, rfl, hputs⟩

theorem Meets.present? {x : Eval α} (hx : x.Meets start start good post) :
    (present? x).Meets start start good fun value => ∀ a ∈ value, post a := by
  intro y hy
  rcases present?_eq_ok hy with rfl | ⟨w, hw, rfl⟩
  · exact ⟨by simp, rfl, by simp⟩
  · obtain ⟨hvalue, hslots, hputs⟩ := hx w hw
    refine ⟨?_, hslots, hputs⟩
    intro a ha
    rw [← Option.mem_some.mp ha]
    exact hvalue

theorem meets_located {ctx : Context} {result : Except Fault α}
    (h : ∀ a, result = .ok a → post a) : (located ctx result).Meets start start good post := by
  intro y hy
  obtain ⟨a, ha, rfl⟩ := located_eq_ok hy
  exact ⟨h a ha, rfl, by simp⟩

theorem meets_fail {ctx : Context} {fault : Fault} :
    (fail ctx fault : Eval α).Meets start stop good post := by
  intro y hy
  cases hy

theorem meets_absent {path : Path} : (absent path : Eval α).Meets start stop good post := by
  intro y hy
  cases hy

theorem meets_nextSlot :
    nextSlot.Meets start (start + 1) good fun index => index = UInt32.ofNat start := by
  intro y hy
  simp only [nextSlot, Except.ok.injEq] at hy
  subst hy
  exact ⟨rfl, rfl, by simp⟩

theorem meets_record {ctx : Context} {value : Value}
    (h : ctx.recording → good (ctx.path, value)) :
    (record ctx value).Meets start start good fun _ => True := by
  intro y hy
  simp only [record, Except.ok.injEq] at hy
  subst hy
  refine ⟨trivial, rfl, ?_⟩
  intro put hput
  split at hput
  · rename_i hrecording
    rw [List.mem_singleton.mp hput]
    exact h hrecording
  · cases hput

/-- A value that is recorded and then given back. -/
theorem meets_record_return {ctx : Context} {value : Value} {post : Value → Prop}
    (hgood : ctx.recording → good (ctx.path, value)) (hpost : post value) :
    (do record ctx value; return value : Eval Value).Meets start start good post :=
  (meets_record hgood).bind fun _ _ => meets_pure hpost

end Contract

end Sequence

/-! ## What each node computes -/

section Node

variable (recur : Expr → Context → Eval Value) (ctx : Context)

/-- An `nbr` read at the position of `inner`: the value of the neighbor in focus, or the
device's own. -/
def nbrAt (body : Expr) (focus : Focus) (inner : Context) : Eval Value :=
  match focus with
  | .neighbor _ exported =>
    match exported.get? inner.path with
    | some v => pure v
    | none => absent inner.path
  | .self => do
    let v ← inside (recur body inner)
    record inner v
    return v

/-- A `rep` at the position of `inner`, before its value is recorded. -/
def repAt (init : Expr) (var : String) (update : Expr) (inner : Context) : Eval Value :=
  match inner.remembered with
  | some previous => inside (recur update (inner.bind var previous))
  | none => inside (recur init inner)

/-- What a fold starts from: the initial value, or the device's own contribution on top. -/
def foldStart (combine initial own : Value) (includeSelf : Bool) : Eval Value :=
  if includeSelf then inside (applyTo recur combine [initial, own] ctx.silent)
  else pure initial

theorem step_var (name : String) :
    step recur (.var name) ctx = located ctx (ctx.lookup name) := rfl

theorem step_sense (name : String) :
    step recur (.sense name) ctx = located ctx (ctx.sense name) := rfl

theorem step_neighborSense (name : String) :
    step recur (.neighborSense name) ctx = located ctx (ctx.neighborSense name) := rfl

theorem step_selfId : step recur .selfId ctx = pure (.text ctx.inputs.device.name) := rfl

theorem step_lambda (code : CodeId) (params : List String) (body : Expr) :
    step recur (.lambda code params body) ctx = pure (.closure code params body ctx.env) := rfl

theorem step_apply (function : Expr) (args : List Expr) :
    step recur (.apply function args) ctx = (do
      let f ← recur function ctx
      let vs ← evalAll recur ctx args
      applyTo recur f vs ctx) := rfl

theorem step_letIn (name : String) (value body : Expr) :
    step recur (.letIn name value body) ctx = (do
      let v ← recur value ctx
      recur body (ctx.bind name v)) := rfl

theorem step_branch (condition thenSide elseSide : Expr) :
    step recur (.branch condition thenSide elseSide) ctx = (do
      let c ← recur condition ctx
      let taken ← located ctx c.asBool
      let index ← nextSlot
      let v ← inside (recur (if taken then thenSide else elseSide)
        (ctx.nest (.branch index taken)))
      record (ctx.nest (.branch index taken)) v
      return v) := rfl

theorem step_rep (init : Expr) (var : String) (update : Expr) :
    step recur (.rep init var update) ctx = (do
      let index ← nextSlot
      let v ← repAt recur init var update (ctx.nest (.rep index))
      record (ctx.nest (.rep index)) v
      return v) := by
  refine bind_congr (m := Eval) ?_
  intro index
  unfold repAt
  cases hremembered : (ctx.nest (.rep index)).remembered with
  | none => simp only [hremembered]
  | some previous => simp only [hremembered]

theorem step_nbr (body : Expr) :
    step recur (.nbr body) ctx = (do
      let index ← nextSlot
      nbrAt recur body ctx.focus (ctx.nest (.nbr index))) := rfl

theorem step_neighborFold (default accumulator generator : Expr) (includeSelf : Bool) :
    step recur (.neighborFold default accumulator generator includeSelf) ctx = (do
      let initial ← recur default ctx
      let combine ← recur accumulator ctx
      let index ← nextSlot
      fold recur initial combine generator includeSelf (ctx.nest (.foldHood index))) := rfl

theorem fold_eq (initial combine : Value) (generator : Expr) (includeSelf : Bool) :
    fold recur initial combine generator includeSelf ctx = (do
      let own ← inside (recur generator ctx.toSelf)
      let start ← foldStart recur ctx combine initial own includeSelf
      let result ← foldNeighbors recur generator combine ctx ctx.alignedNeighbors start
      record ctx result
      return result) := by
  cases includeSelf <;> rfl

theorem foldNeighbors_cons (generator : Expr) (combine : Value) (id : DeviceId)
    (exported : Export) (rest : List (DeviceId × Export)) (acc : Value) :
    foldNeighbors recur generator combine ctx ((id, exported) :: rest) acc = (do
      let contribution ← present? (inside (recur generator (ctx.toSelf.focusedOn id exported)))
      match contribution with
      | some value => do
        let acc ← inside (applyTo recur combine [acc, value] ctx.silent)
        foldNeighbors recur generator combine ctx rest acc
      | none => foldNeighbors recur generator combine ctx rest acc) := rfl

theorem applyTo_closure (code : CodeId) (params : List String) (body : Expr) (env : Env)
    (args : List Value) :
    applyTo recur (.closure code params body env) args ctx =
      if params.length ≠ args.length then
        fail ctx (.arityMismatch params.length args.length)
      else (do
        let index ← nextSlot
        inside (recur body ((ctx.nest (.funCall index code)).withEnv
          (Entries.insertAll env (params.zip args))))) := rfl

end Node

/-! ## Finished evaluations -/

section Finished

variable {recur : Expr → Context → Eval Value} {ctx : Context} {slots : Nat}

theorem evalAll_cons_eq_ok {e : Expr} {rest : List Expr} {z : Yield (List Value)}
    (h : evalAll recur ctx (e :: rest) slots = .ok z) :
    ∃ y w, recur e ctx slots = .ok y ∧ evalAll recur ctx rest y.slots = .ok w ∧
      z.value = y.value :: w.value := by
  obtain ⟨y, x, hy, hx, rfl⟩ := bind_eq_ok h
  obtain ⟨w, _, hw, hdone, rfl⟩ := bind_eq_ok hx
  cases hdone
  exact ⟨y, w, hy, hw, rfl⟩

theorem evalAll_cons_ok {e : Expr} {rest : List Expr} {y : Yield Value} {z : Yield (List Value)}
    (he : recur e ctx slots = .ok y) (hrest : evalAll recur ctx rest y.slots = .ok z) :
    evalAll recur ctx (e :: rest) slots =
      .ok ⟨y.value :: z.value, z.slots, y.puts ++ z.puts⟩ := by
  rw [evalAll, bind_run he, bind_run hrest, pure_run]
  simp [Except.map]

theorem evalAll_singleton_ok {e : Expr} {y : Yield Value} (he : recur e ctx slots = .ok y) :
    evalAll recur ctx [e] slots = .ok ⟨[y.value], y.slots, y.puts⟩ := by
  rw [evalAll_cons_ok he rfl]
  simp

theorem evalAll_append_ok {xs ys : List Expr} {y z : Yield (List Value)}
    (hx : evalAll recur ctx xs slots = .ok y) (hy : evalAll recur ctx ys y.slots = .ok z) :
    evalAll recur ctx (xs ++ ys) slots = .ok ⟨y.value ++ z.value, z.slots, y.puts ++ z.puts⟩ := by
  induction xs generalizing slots y with
  | nil =>
      cases hx
      exact hy
  | cons x rest ih =>
      obtain ⟨first, w, hfirst, hw, rfl⟩ := bind_eq_ok hx
      obtain ⟨others, _, hothers, hdone, rfl⟩ := bind_eq_ok hw
      cases hdone
      have hall := evalAll_cons_ok hfirst (ih hothers hy)
      simpa using hall

/-- One expression over and over, opening one slot each time. -/
theorem evalAll_replicate_ok {e : Expr} {v : Value} {good : Path × Value → Prop}
    (he : ∀ slots, ∃ puts, recur e ctx slots = .ok ⟨v, slots + 1, puts⟩ ∧ ∀ put ∈ puts, good put)
    (count slots : Nat) :
    ∃ puts, evalAll recur ctx (List.replicate count e) slots =
        .ok ⟨List.replicate count v, slots + count, puts⟩ ∧ ∀ put ∈ puts, good put := by
  induction count generalizing slots with
  | zero => exact ⟨[], rfl, by simp⟩
  | succ count ih =>
      obtain ⟨first, hfirst, hputs⟩ := he slots
      obtain ⟨others, hothers, hputs'⟩ := ih (slots + 1)
      refine ⟨first ++ others, ?_, List.forall_mem_append.mpr ⟨hputs, hputs'⟩⟩
      have hall := evalAll_cons_ok hfirst hothers
      rw [Nat.add_assoc, Nat.add_comm 1 count] at hall
      exact hall

theorem applyTo_builtin_ok {b : Builtin} {args : List Value} {v : Value}
    (h : b.call args = .ok v) : applyTo recur (.builtin b) args ctx slots = .ok ⟨v, slots, []⟩ := by
  rw [applyTo, h]
  rfl

theorem eval_var_ok {depth : Nat} {name : String} {v : Value} (h : ctx.lookup name = .ok v) :
    eval (depth + 1) (.var name) ctx slots = .ok ⟨v, slots, []⟩ := by
  change located _ (ctx.lookup name) slots = _
  rw [h]
  rfl

/-- The application of an operator yields what the operator makes of the arguments. -/
theorem eval_call_ok {depth : Nat} {b : Builtin} {args : List Expr} {y : Yield (List Value)}
    {v : Value} (hargs : evalAll (eval (depth + 1)) ctx args slots = .ok y)
    (hv : b.call y.value = .ok v) :
    eval (depth + 2) (.call b args) ctx slots = .ok ⟨v, y.slots, y.puts⟩ := by
  have hoperator : eval (depth + 1) (.literal (.builtin b)) ctx slots =
      .ok ⟨.builtin b, slots, []⟩ := rfl
  change step (eval (depth + 1)) (.apply _ args) ctx slots = _
  rw [step_apply, bind_run hoperator, bind_run hargs, applyTo_builtin_ok hv]
  simp [Except.map]

/-- A device records what it tells its neighbors. -/
theorem eval_nbr_self_ok {depth : Nat} {body : Expr} {y : Yield Value} (hfocus : ctx.focus = .self)
    (hbody : eval depth body (ctx.nest (.nbr (UInt32.ofNat slots))) 0 = .ok y) :
    eval (depth + 1) (.nbr body) ctx slots = .ok ⟨y.value, slots + 1,
      y.puts ++ if ctx.recording then [(ctx.path.push (.nbr (UInt32.ofNat slots)), y.value)]
        else []⟩ := by
  change step (eval depth) (.nbr body) ctx slots = _
  rw [step_nbr, bind_run (nextSlot_run slots), hfocus, nbrAt, bind_run (inside_of_ok hbody _),
    bind_run (record_run _ _ _), pure_run]
  simp only [Except.map, List.append_nil, List.nil_append]
  rfl

theorem eval_nbr_neighbor_ok {depth : Nat} {body : Expr} {id : DeviceId} {exported : Export}
    {v : Value} (hfocus : ctx.focus = .neighbor id exported)
    (hv : exported.get? (ctx.path.push (.nbr (UInt32.ofNat slots))) = some v) :
    eval (depth + 1) (.nbr body) ctx slots = .ok ⟨v, slots + 1, []⟩ := by
  change step (eval depth) (.nbr body) ctx slots = _
  rw [step_nbr, bind_run (nextSlot_run slots), hfocus, nbrAt, Context.nest, hv]
  rfl

/-- What a computation one level deeper comes to, with its value recorded at the place of
`ctx`. -/
theorem inside_record_run (x : Eval Value) (ctx : Context) (slots : Nat) :
    (do let v ← inside x; record ctx v; return v : Eval Value) slots =
      (x 0).map fun y => ⟨y.value, slots, y.puts ++
        if ctx.recording then [(ctx.path, y.value)] else []⟩ := by
  cases hx : x 0 with
  | ok y =>
      rw [bind_run (inside_of_ok hx slots), bind_run (record_run _ _ _), pure_run]
      simp only [Except.map, List.append_nil]
  | error interrupt =>
      simp only [bind, inside, hx]
      rfl

/-- Once its condition is decided, a branch is the side that is taken. -/
theorem eval_branch_run {depth : Nat} {condition : Expr} {y : Yield Value} {taken : Bool}
    (thenSide elseSide : Expr) (hcondition : eval depth condition ctx slots = .ok y)
    (htaken : y.value = .bool taken) :
    eval (depth + 1) (.branch condition thenSide elseSide) ctx slots =
      (eval depth (if taken then thenSide else elseSide)
        (ctx.nest (.branch (UInt32.ofNat y.slots) taken)) 0).map fun z =>
          ⟨z.value, y.slots + 1, y.puts ++ (z.puts ++ if ctx.recording then
            [(ctx.path.push (.branch (UInt32.ofNat y.slots) taken), z.value)] else [])⟩ := by
  have hlocated : located ctx y.value.asBool = pure taken := by
    rw [htaken]
    rfl
  change step (eval depth) (.branch condition thenSide elseSide) ctx slots = _
  rw [step_branch, bind_run hcondition, hlocated, bind_run (pure_run taken y.slots),
    bind_run (nextSlot_run y.slots), inside_record_run]
  cases eval depth (if taken then thenSide else elseSide)
    (ctx.nest (.branch (UInt32.ofNat y.slots) taken)) 0 <;> rfl

/-- A `rep` goes on from the remembered value, or starts if there is none. -/
theorem eval_rep_ok {depth : Nat} {init update : Expr} {name : String} {y : Yield Value}
    (hvalue : repAt (eval depth) init name update (ctx.nest (.rep (UInt32.ofNat slots)))
      (slots + 1) = .ok ⟨y.value, slots + 1, y.puts⟩) :
    eval (depth + 1) (.rep init name update) ctx slots = .ok ⟨y.value, slots + 1,
      y.puts ++ if ctx.recording then [(ctx.path.push (.rep (UInt32.ofNat slots)), y.value)]
        else []⟩ := by
  change step (eval depth) (.rep init name update) ctx slots = _
  rw [step_rep, bind_run (nextSlot_run slots), bind_run hvalue, bind_run (record_run _ _ _),
    pure_run]
  simp only [Except.map, List.append_nil, List.nil_append]
  rfl

/-- A fold over neighbors that all have a value takes in one after the other. -/
theorem foldNeighbors_ok {α β : Type} {generator : Expr} {combine : Value} {reached : α → Value}
    {heard : β → Value} {next : α → β → α}
    (hnext : ∀ a b, ∃ opened, applyTo recur combine [reached a, heard b] ctx.silent 0 =
      .ok ⟨reached (next a b), opened, []⟩)
    {neighbors : List (DeviceId × Export)} {told : List β}
    (htold : List.Forall₂ (fun entry b => ∃ opened,
      recur generator (ctx.toSelf.focusedOn entry.1 entry.2) 0 = .ok ⟨heard b, opened, []⟩)
      neighbors told) (a : α) :
    foldNeighbors recur generator combine ctx neighbors (reached a) slots =
      .ok ⟨reached (told.foldl next a), slots, []⟩ := by
  induction htold generalizing a with
  | nil => rfl
  | @cons entry b neighbors told hentry _ ih =>
      obtain ⟨id, exported⟩ := entry
      obtain ⟨_, hgiven⟩ := hentry
      obtain ⟨_, hcombined⟩ := hnext a b
      have hasked := present?_of_ok (inside_of_ok hgiven slots)
      have htaken := inside_of_ok hcombined slots
      rw [foldNeighbors_cons, bind_run hasked]
      dsimp only
      rw [bind_run htaken, ih]
      rfl

/-- A fold yields what comes of its start and the neighbors, and records its own contribution
below the result. -/
theorem eval_neighborFold_ok {depth : Nat} {default accumulator generator : Expr}
    {includeSelf : Bool} {initial combine start result : Value} {own : Yield Value}
    (hinitial : eval depth default ctx slots = .ok ⟨initial, slots, []⟩)
    (hcombine : eval depth accumulator ctx slots = .ok ⟨combine, slots, []⟩)
    (hown : eval depth generator (ctx.nest (.foldHood (UInt32.ofNat slots))).toSelf 0 = .ok own)
    (hstart : foldStart (eval depth) (ctx.nest (.foldHood (UInt32.ofNat slots))) combine initial
      own.value includeSelf (slots + 1) = .ok ⟨start, slots + 1, []⟩)
    (hresult : foldNeighbors (eval depth) generator combine
      (ctx.nest (.foldHood (UInt32.ofNat slots)))
      (ctx.nest (.foldHood (UInt32.ofNat slots))).alignedNeighbors start (slots + 1) =
        .ok ⟨result, slots + 1, []⟩) :
    eval (depth + 1) (.neighborFold default accumulator generator includeSelf) ctx slots =
      .ok ⟨result, slots + 1, own.puts ++ if ctx.recording then
        [(ctx.path.push (.foldHood (UInt32.ofNat slots)), result)] else []⟩ := by
  change step (eval depth) (.neighborFold default accumulator generator includeSelf) ctx slots = _
  rw [step_neighborFold, bind_run hinitial, bind_run hcombine, bind_run (nextSlot_run slots),
    fold_eq, bind_run (inside_of_ok hown _), bind_run hstart, bind_run hresult,
    bind_run (record_run _ _ _), pure_run]
  simp only [Except.map, List.append_nil, List.nil_append]
  rfl

end Finished

end Eval

/-- If each neighbor that takes part in a fold tells something, what all of them tell makes a
list, in the order of the fold. -/
theorem RoundInputs.exists_told {β : Type} [Nonempty β] {inputs : RoundInputs} {fold : Path}
    {tells : DeviceId → Export → β → Prop}
    (htells : ∀ y e, inputs.neighbors.find? y = some e → e.contains fold → ∃ b, tells y e b) :
    ∃ told : List β,
      List.Forall₂ (fun entry b => tells entry.1 entry.2 b) (inputs.neighbors.entries.filter
        fun entry => entry.1 ≠ inputs.device && entry.2.contains fold) told ∧
      (∀ b ∈ told, ∃ y e, inputs.neighbors.find? y = some e ∧ tells y e b) ∧
      ∀ y e, inputs.neighbors.find? y = some e → y ≠ inputs.device → e.contains fold →
        ∃ b ∈ told, tells y e b := by
  have hmem : ∀ entry : DeviceId × Export, entry ∈ (inputs.neighbors.entries.filter fun entry =>
      entry.1 ≠ inputs.device && entry.2.contains fold) ↔
        inputs.neighbors.find? entry.1 = some entry.2 ∧ entry.1 ≠ inputs.device ∧
          entry.2.contains fold := by
    intro entry
    rw [List.mem_filter, Dict.find?_eq_some_iff, Bool.and_eq_true, decide_eq_true_iff]
  have hentries : ∀ entry ∈ (inputs.neighbors.entries.filter fun entry =>
      entry.1 ≠ inputs.device && entry.2.contains fold), ∃ b, tells entry.1 entry.2 b := by
    intro entry hentry
    obtain ⟨hfound, -, htakes⟩ := (hmem entry).mp hentry
    exact htells _ _ hfound htakes
  choose! told htold using hentries
  refine ⟨_, List.forall₂_map_right_iff.mpr (List.forall₂_same.mpr htold), ?_, ?_⟩
  · intro b hb
    obtain ⟨entry, hentry, rfl⟩ := List.mem_map.mp hb
    exact ⟨entry.1, entry.2, ((hmem entry).mp hentry).1, htold entry hentry⟩
  · intro y e hfound hne htakes
    have hentry := (hmem (y, e)).mpr ⟨hfound, hne, htakes⟩
    exact ⟨told (y, e), List.mem_map_of_mem hentry, htold (y, e) hentry⟩

end FieldCalculus
