import FieldCalculus.Proofs.Depth
import FieldCalculus.Proofs.Faults
import FieldCalculus.Proofs.Inventory
import FieldCalculus.Proofs.Provenance
import FieldCalculus.Proofs.Reach

/-!
What evaluation passes on. A property of values that data has and that tuples have with their items
goes through a node if it goes through its parts, and the node stops for the reasons that its parts
stop for or because of what it is given. What differs from one property to another is what it says
of the parts of a program and of the closures that are called.
-/

namespace FieldCalculus

/-- What an evaluation that stops is reported as. -/
def Interrupt.error : Interrupt → EvalError
  | failed error => error
  | absent path => ⟨.unalignedRead, path⟩

namespace Eval

variable {α β : Type} {good : Value → Prop} {reason : Interrupt → Prop}

/-! ## Contracts -/

/-- If the computation finishes, its value satisfies `post` and all that it records is good; if it
stops, it does so for such a reason. -/
structure Keeps (x : Eval α) (good : Value → Prop) (reason : Interrupt → Prop)
    (post : α → Prop) : Prop where
  finished : ∀ slots y, x slots = .ok y → post y.value ∧ ∀ put ∈ y.puts, good put.2
  stopped : ∀ slots interrupt, x slots = .error interrupt → reason interrupt

namespace Keeps

variable {post : α → Prop} {post' : β → Prop} {ctx : Context}

theorem pure {a : α} (h : post a) : (Pure.pure a : Eval α).Keeps good reason post := by
  refine ⟨?_, ?_⟩
  · rintro slots _ ⟨⟩
    exact ⟨h, by simp⟩
  · intro slots interrupt hstops
    cases hstops

theorem bind {x : Eval α} {f : α → Eval β} (hx : x.Keeps good reason post)
    (hf : ∀ a, post a → (f a).Keeps good reason post') : (x >>= f).Keeps good reason post' := by
  refine ⟨?_, ?_⟩
  · intro slots z hz
    obtain ⟨y, w, hy, hw, rfl⟩ := bind_eq_ok hz
    obtain ⟨hvalue, hputs⟩ := hx.finished slots y hy
    obtain ⟨hvalue', hputs'⟩ := (hf y.value hvalue).finished y.slots w hw
    exact ⟨hvalue', List.forall_mem_append.mpr ⟨hputs, hputs'⟩⟩
  · intro slots interrupt hstops
    rcases bind_eq_error hstops with hfirst | ⟨y, hy, hsecond⟩
    · exact hx.stopped slots interrupt hfirst
    · exact (hf y.value (hx.finished slots y hy).1).stopped y.slots interrupt hsecond

theorem inside {x : Eval α} (hx : x.Keeps good reason post) :
    (inside x).Keeps good reason post := by
  refine ⟨?_, fun slots interrupt hstops => hx.stopped 0 interrupt (inside_eq_error hstops)⟩
  intro slots y hy
  obtain ⟨w, hw, rfl⟩ := inside_eq_ok hy
  exact hx.finished 0 w hw

theorem present? {x : Eval α} (hx : x.Keeps good reason post) :
    (present? x).Keeps good reason fun value => ∀ a ∈ value, post a := by
  refine ⟨?_, fun slots interrupt hstops => hx.stopped slots interrupt (present?_eq_error hstops)⟩
  intro slots y hy
  rcases present?_eq_ok hy with rfl | ⟨w, hw, rfl⟩
  · simp
  · obtain ⟨hvalue, hputs⟩ := hx.finished slots w hw
    refine ⟨?_, hputs⟩
    intro a ha
    rw [← Option.mem_some.mp ha]
    exact hvalue

theorem fail {fault : Fault} (h : reason (.failed ⟨fault, ctx.path⟩)) :
    (fail ctx fault : Eval α).Keeps good reason post := by
  refine ⟨?_, ?_⟩
  · intro slots y hy
    cases hy
  · rintro slots _ ⟨⟩
    exact h

theorem absent {path : Path} (h : reason (.absent path)) :
    (absent path : Eval α).Keeps good reason post := by
  refine ⟨?_, ?_⟩
  · intro slots y hy
    cases hy
  · rintro slots _ ⟨⟩
    exact h

theorem located {result : Except Fault α} (hok : ∀ a, result = .ok a → post a)
    (hfails : ∀ fault, result = .error fault → reason (.failed ⟨fault, ctx.path⟩)) :
    (located ctx result).Keeps good reason post := by
  cases result with
  | ok a => exact .pure (hok a rfl)
  | error fault => exact .fail (hfails fault rfl)

theorem nextSlot : nextSlot.Keeps good reason fun _ => True := by
  refine ⟨?_, ?_⟩
  · rintro slots _ ⟨⟩
    exact ⟨trivial, by simp⟩
  · intro slots interrupt hstops
    cases hstops

theorem record_return {value : Value} (h : good value) :
    (do record ctx value; return value : Eval Value).Keeps good reason good := by
  have hrecord : (record ctx value).Keeps good reason fun _ => True := by
    refine ⟨?_, ?_⟩
    · rintro slots _ ⟨⟩
      refine ⟨trivial, ?_⟩
      intro put hput
      dsimp only at hput
      split at hput
      · rw [List.mem_singleton.mp hput]
        exact h
      · cases hput
    · intro slots interrupt hstops
      cases hstops
  exact hrecord.bind fun _ _ => .pure h

end Keeps

end Eval

namespace Eval

variable {good : Value → Prop} {reason : Interrupt → Prop} {recur : Expr → Context → Eval Value}
  {env : Env} {ctx : Context}

/-! ## What is asked of the parts of a node -/

/-- Reasons that hold where values are misused and where a reading or a neighbor's value is
missing. -/
structure Ordinary (reason : Interrupt → Prop) : Prop where
  misuse : ∀ {fault path}, Fault.IsMisuse fault → reason (.failed ⟨fault, path⟩)
  unavailable : ∀ {name path}, reason (.failed ⟨.sensorUnavailable name, path⟩)
  absent : ∀ {path}, reason (.absent path)

/-- Under these bindings the program keeps to good values and stops for such reasons, wherever all
values in reach are good. -/
def KeepsUnder (good : Value → Prop) (reason : Interrupt → Prop)
    (recur : Expr → Context → Eval Value) (env : Env) (expr : Expr) : Prop :=
  ∀ ctx : Context, ctx.All good → ctx.env = env → (recur expr ctx).Keeps good reason good

/-- The closures that are good have captured good values and may be called with good arguments. -/
structure CallsKeep (good : Value → Prop) (reason : Interrupt → Prop)
    (recur : Expr → Context → Eval Value) : Prop where
  captured : ∀ {code params body env}, good (.closure code params body env) →
    ∀ entry ∈ env, good entry.2
  called : ∀ {code params body env args}, good (.closure code params body env) →
    (∀ v ∈ args, good v) → params.length = args.length →
      KeepsUnder good reason recur (Entries.insertAll env (params.zip args)) body

/-- What a node needs of its parts to keep to good values under these bindings. -/
def PartsKeep (good : Value → Prop) (reason : Interrupt → Prop)
    (recur : Expr → Context → Eval Value) (env : Env) : Expr → Prop
  | .literal v => good v
  | .var name => Entries.find? name env = none →
    ∀ path, reason (.failed ⟨.unboundVariable name, path⟩)
  | .sense _ | .neighborSense _ | .selfId => True
  | .lambda code params body =>
    (∀ entry ∈ env, good entry.2) → good (.closure code params body env)
  | .apply function args => KeepsUnder good reason recur env function ∧
    ∀ arg ∈ args, KeepsUnder good reason recur env arg
  | .letIn name value body => KeepsUnder good reason recur env value ∧
    ∀ v, good v → KeepsUnder good reason recur (Entries.insert name v env) body
  | .branch condition thenSide elseSide => KeepsUnder good reason recur env condition ∧
    KeepsUnder good reason recur env thenSide ∧ KeepsUnder good reason recur env elseSide
  | .rep init name update => KeepsUnder good reason recur env init ∧
    ∀ v, good v → KeepsUnder good reason recur (Entries.insert name v env) update
  | .nbr body => KeepsUnder good reason recur env body
  | .neighborFold default accumulator generator _ => KeepsUnder good reason recur env default ∧
    KeepsUnder good reason recur env accumulator ∧ KeepsUnder good reason recur env generator

/-! ## Each node -/

section Node

variable (hgood : Value.Hereditary good) (hreason : Ordinary reason)

theorem keeps_lookup {name : String} (hctx : ctx.All good)
    (hmissing : Entries.find? name ctx.env = none →
      ∀ path, reason (.failed ⟨.unboundVariable name, path⟩)) :
    (located ctx (ctx.lookup name)).Keeps good reason good := by
  unfold Context.lookup
  split
  case h_1 v hfound => exact .pure (hctx.env (name, v) (Entries.mem_of_find? hfound))
  case h_2 hnone => exact .fail (hmissing hnone _)

include hreason

theorem keeps_sense (hctx : ctx.All good) (name : String) :
    (located ctx (ctx.sense name)).Keeps good reason good := by
  unfold Context.sense
  split
  case h_1 v hv => exact .pure (hctx.inputs.sensors.own name v hv)
  case h_2 => exact .fail hreason.unavailable

theorem keeps_neighborSense (hctx : ctx.All good) (name : String) :
    (located ctx (ctx.neighborSense name)).Keeps good reason good := by
  unfold Context.neighborSense
  split
  case h_1 v hv => exact .pure (hctx.inputs.sensors.relative name ctx.target v hv)
  case h_2 => exact .fail hreason.unavailable

omit hreason

theorem keeps_evalAll {exprs : List Expr} (hctx : ctx.All good)
    (hexprs : ∀ expr ∈ exprs, KeepsUnder good reason recur ctx.env expr) :
    (evalAll recur ctx exprs).Keeps good reason fun vs => ∀ v ∈ vs, good v := by
  induction exprs with
  | nil => exact .pure (by simp)
  | cons expr rest ih =>
      obtain ⟨hexpr, hrest⟩ := List.forall_mem_cons.mp hexprs
      refine (hexpr ctx hctx rfl).bind fun v hv => (ih hrest).bind fun vs hvs => ?_
      exact .pure (List.forall_mem_cons.mpr ⟨hv, hvs⟩)

include hgood hreason

variable (hcalls : CallsKeep good reason recur)

include hcalls

theorem keeps_applyTo {function : Value} {args : List Value} (hctx : ctx.All good)
    (hfunction : good function) (hargs : ∀ v ∈ args, good v) :
    (applyTo recur function args ctx).Keeps good reason good := by
  cases function with
  | builtin b =>
      refine .located (fun v hv => Builtin.hereditary_call hgood hv hargs) ?_
      exact fun fault hfault => hreason.misuse (Builtin.failsByMisuse_call b args fault hfault)
  | closure code params body env =>
      rw [applyTo_closure]
      split
      · exact .fail (hreason.misuse trivial)
      · rename_i hcount
        have hbody := hcalls.called hfunction hargs (not_not.mp hcount)
        refine Keeps.nextSlot.bind fun index _ => Keeps.inside ?_
        exact hbody _ ((hctx.nest _).called (hcalls.captured hfunction) hargs) rfl
  | _ => exact .fail (hreason.misuse trivial)

theorem keeps_foldNeighbors {generator : Expr} {combine : Value} (hctx : ctx.All good)
    (hgenerator : KeepsUnder good reason recur ctx.env generator) (hcombine : good combine)
    {neighbors : List (DeviceId × Export)} (hneighbors : ∀ entry ∈ neighbors, entry.2.All good)
    {acc : Value} (hacc : good acc) :
    (foldNeighbors recur generator combine ctx neighbors acc).Keeps good reason good := by
  induction neighbors generalizing acc with
  | nil => exact .pure hacc
  | cons neighbor rest ih =>
      obtain ⟨id, exported⟩ := neighbor
      obtain ⟨hexported, hrest⟩ := List.forall_mem_cons.mp hneighbors
      rw [foldNeighbors_cons]
      have hasked := hgenerator _ (hctx.toSelf.focusedOn id hexported) rfl
      refine hasked.inside.present?.bind fun contribution hvalue => ?_
      cases contribution with
      | none => exact ih hrest hacc
      | some value =>
          have hargs : ∀ v ∈ [acc, value], good v := by simp [hacc, hvalue value rfl]
          have hcombined := keeps_applyTo hgood hreason hcalls hctx.silent hcombine hargs
          exact hcombined.inside.bind fun next hnext => ih hrest hnext

theorem keeps_fold {initial combine : Value} {generator : Expr} (hctx : ctx.All good)
    (hinitial : good initial) (hcombine : good combine)
    (hgenerator : KeepsUnder good reason recur ctx.env generator) (includeSelf : Bool) :
    (fold recur initial combine generator includeSelf ctx).Keeps good reason good := by
  rw [fold_eq]
  refine (hgenerator _ hctx.toSelf rfl).inside.bind fun own hown => ?_
  have hstart : (foldStart recur ctx combine initial own includeSelf).Keeps good reason good := by
    rw [foldStart]
    split
    · have hargs : ∀ v ∈ [initial, own], good v := by simp [hinitial, hown]
      exact (keeps_applyTo hgood hreason hcalls hctx.silent hcombine hargs).inside
    · exact .pure hinitial
  refine hstart.bind fun start hvalue => ?_
  have hresult := keeps_foldNeighbors hgood hreason hcalls hctx hgenerator hcombine
    (fun _ hmem => hctx.aligned hmem) hvalue
  exact hresult.bind fun result hgiven => .record_return hgiven

/-- A node keeps to good values if its parts and the closures that it calls do. -/
theorem keepsUnder_step {expr : Expr} (hparts : PartsKeep good reason recur env expr) :
    KeepsUnder good reason (step recur) env expr := by
  rintro ctx hctx rfl
  cases expr with
  | literal v => exact .pure hparts
  | var name => exact keeps_lookup hctx hparts
  | sense name => exact keeps_sense hreason hctx name
  | neighborSense name => exact keeps_neighborSense hreason hctx name
  | selfId => exact .pure (hgood.data rfl)
  | lambda code params body => exact .pure (hparts hctx.env)
  | apply function args =>
      obtain ⟨hfunction, hargs⟩ := hparts
      rw [step_apply]
      refine (hfunction ctx hctx rfl).bind fun f hf => ?_
      refine (keeps_evalAll hctx hargs).bind fun vs hvs => ?_
      exact keeps_applyTo hgood hreason hcalls hctx hf hvs
  | letIn name value body =>
      obtain ⟨hvalue, hbody⟩ := hparts
      rw [step_letIn]
      exact (hvalue ctx hctx rfl).bind fun v hv => hbody v hv _ (hctx.bind name hv) rfl
  | branch condition thenSide elseSide =>
      obtain ⟨hcondition, hthen, helse⟩ := hparts
      rw [step_branch]
      refine (hcondition ctx hctx rfl).bind fun c _ => ?_
      have hanswer : (located ctx c.asBool).Keeps good reason fun _ => True :=
        .located (fun _ _ => trivial) fun fault hfault =>
          hreason.misuse (Builtin.FailsByMisuse.asBool c fault hfault)
      refine hanswer.bind fun taken _ => Keeps.nextSlot.bind fun index _ => ?_
      have hside : KeepsUnder good reason recur ctx.env (if taken then thenSide else elseSide) := by
        cases taken
        · exact helse
        · exact hthen
      exact (hside _ (hctx.nest _) rfl).inside.bind fun v hv => .record_return hv
  | rep init name update =>
      obtain ⟨hinit, hupdate⟩ := hparts
      rw [step_rep]
      refine Keeps.nextSlot.bind fun index _ => ?_
      have hinner := hctx.nest (.rep index)
      have hvalue : (repAt recur init name update (ctx.nest (.rep index))).Keeps good reason
          good := by
        rw [repAt]
        split
        · rename_i previous hprevious
          have hold := hinner.remembered hprevious
          exact (hupdate previous hold _ (hinner.bind name hold) rfl).inside
        · exact (hinit _ hinner rfl).inside
      exact hvalue.bind fun v hv => .record_return hv
  | nbr body =>
      rw [step_nbr]
      refine Keeps.nextSlot.bind fun index _ => ?_
      cases hfocus : ctx.focus with
      | neighbor id exported =>
          rw [nbrAt]
          split
          · rename_i v hv
            exact .pure (hctx.focus id exported hfocus _ v hv)
          · exact .absent hreason.absent
      | self =>
          rw [nbrAt]
          exact (hparts _ (hctx.nest _) rfl).inside.bind fun v hv => .record_return hv
  | neighborFold default accumulator generator includeSelf =>
      obtain ⟨hdefault, haccumulator, hgenerator⟩ := hparts
      rw [step_neighborFold]
      refine (hdefault ctx hctx rfl).bind fun initial hinitial => ?_
      refine (haccumulator ctx hctx rfl).bind fun combine hcombine => ?_
      refine Keeps.nextSlot.bind fun index _ => ?_
      exact keeps_fold hgood hreason hcalls (hctx.nest _) hinitial hcombine hgenerator includeSelf

end Node

/-! ## Rounds -/

/-- What a program that keeps to good values leaves behind is good, and if it fails, it does so for
such a reason. -/
theorem KeepsUnder.evaluated {depth : Nat} {program : Expr} {inputs : RoundInputs}
    (h : KeepsUnder good reason (eval depth) [] program) (hinputs : inputs.All good) :
    (∀ result, evaluateWithin depth program inputs = .ok result → result.All good) ∧
      ∀ error, evaluateWithin depth program inputs = .error error →
        ∃ interrupt, reason interrupt ∧ interrupt.error = error := by
  have hkeeps := h _ (.root hinputs) rfl
  unfold evaluateWithin
  cases heval : eval depth program (.root inputs) 0 with
  | ok y =>
      obtain ⟨hvalue, hputs⟩ := hkeeps.finished 0 y heval
      refine ⟨?_, nofun⟩
      rintro result ⟨⟩
      exact ⟨hvalue, Export.all_ofPuts hputs hvalue⟩
  | error interrupt =>
      have hstopped := hkeeps.stopped 0 interrupt heval
      cases interrupt with
      | failed error =>
          refine ⟨nofun, ?_⟩
          rintro _ ⟨⟩
          exact ⟨.failed error, hstopped, rfl⟩
      | absent path =>
          refine ⟨nofun, ?_⟩
          rintro _ ⟨⟩
          exact ⟨.absent path, hstopped, rfl⟩

end Eval

end FieldCalculus
