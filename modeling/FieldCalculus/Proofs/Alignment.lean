import FieldCalculus.Proofs.Eval
import FieldCalculus.Proofs.Provenance
import FieldCalculus.Proofs.Reach

/-!
Alignment: what a path names. Slots are numbered while a program runs, so it takes an
argument that two rounds number them alike. Here every value recorded at an `nbr` slot is
the body of the `nbr` that the program has at that path, whatever the round was given.
-/

namespace FieldCalculus

/-- Every `nbr` of the program sends a literal. -/
def Expr.LiteralNbrs (program : Expr) : Prop :=
  ∀ {body}, .nbr body ∈ program.nodes → ∃ v, body = .literal v

/-- No level of the program opens more slots than there are numbers for them. -/
def Expr.SlotsFit (program : Expr) : Prop :=
  ∀ level ∈ program.nodes, (program.opened level).length ≤ UInt32.size

/-- Values at `nbr` slots tell which construct of the program they belong to. Where lambdas occur,
built-ins are called and nothing else is done with them: calling a lambda opens a slot, and calling
a built-in does not. -/
structure Expr.Alignable (program : Expr) : Prop where
  literals : program.LiteralNbrs
  codes : program.CodesDistinct
  calls : program.hasLambdas → program.callsBuiltins
  fits : program.SlotsFit

/-- Whether an earlier round left a value at the path. -/
def RoundInputs.remembers (inputs : RoundInputs) (path : Path) : Bool :=
  (inputs.state.get? path).isSome

/-- If values are recorded at this position, then its level opens these constructs next,
after the `slots` that are open already. -/
def Context.Opens (program : Expr) (ctx : Context) (slots : Nat) (openers : List Expr) : Prop :=
  ctx.recording → ∃ level before after,
    program.levelAt ctx.inputs.remembers ctx.path = some level ∧ level ∈ program.nodes ∧
      program.opened level = before ++ openers ++ after ∧ before.length = slots

namespace Context.Opens

variable {program : Expr} {ctx : Context} {slots : Nat}

theorem left {xs ys : List Expr} (h : ctx.Opens program slots (xs ++ ys)) :
    ctx.Opens program slots xs := by
  intro hrecording
  obtain ⟨level, before, after, hlevel, hmem, hopeners, hslots⟩ := h hrecording
  exact ⟨level, before, ys ++ after, hlevel, hmem, by simp [hopeners], hslots⟩

theorem right {xs ys : List Expr} (h : ctx.Opens program slots (xs ++ ys)) :
    ctx.Opens program (slots + xs.length) ys := by
  intro hrecording
  obtain ⟨level, before, after, hlevel, hmem, hopeners, hslots⟩ := h hrecording
  exact ⟨level, before ++ xs, after, hlevel, hmem, by simp [hopeners], by simp [hslots]⟩

theorem of_silent (h : ctx.recording = false) (openers : List Expr) :
    ctx.Opens program slots openers := by
  intro hrecording
  rw [h] at hrecording
  cases hrecording

theorem of_level {level : Expr} (hmem : level ∈ program.nodes)
    (hlevel : ctx.recording → program.levelAt ctx.inputs.remembers ctx.path = some level) :
    ctx.Opens program 0 (program.opened level) := by
  intro hrecording
  exact ⟨level, [], [], hlevel hrecording, hmem, by simp, rfl⟩

/-- The slot opened next leads behind the construct that opens it. -/
theorem levelAt_nest (halign : program.Alignable) {opener : Expr} {slot : Slot}
    (h : ctx.Opens program slots [opener]) (hslot : slot.index = UInt32.ofNat slots)
    (hrecording : ctx.recording) :
    program.levelAt ctx.inputs.remembers (ctx.nest slot).path =
      program.behind opener slot (ctx.inputs.remembers (ctx.nest slot).path) := by
  obtain ⟨level, before, after, hlevel, hmem, hopeners, hslots⟩ := h hrecording
  have hbound : slots < UInt32.size := by
    have hwidth := halign.fits level hmem
    simp only [hopeners, List.length_append, List.length_singleton] at hwidth
    omega
  have hindex : slot.index.toNat = slots := by
    rw [hslot, UInt32.toNat_ofNat_of_lt' hbound]
  have hopener : (program.opened level)[slots]? = some opener := by
    rw [hopeners, List.append_assoc, List.getElem?_append_right (by omega)]
    simp [hslots]
  unfold Context.nest
  rw [Expr.levelAt_push, hlevel, Option.bind_some, Expr.enter, hindex, hopener, Option.bind_some]

theorem nest (halign : program.Alignable) {opener level : Expr} {slot : Slot}
    (h : ctx.Opens program slots [opener]) (hslot : slot.index = UInt32.ofNat slots)
    (hbehind : program.behind opener slot (ctx.inputs.remembers (ctx.nest slot).path) = some level)
    (hmem : level ∈ program.nodes) :
    (ctx.nest slot).Opens program 0 (program.opened level) := by
  apply of_level hmem
  intro hrecording
  rw [← hbehind]
  exact h.levelAt_nest halign hslot hrecording

end Context.Opens

/-! ## What evaluation records

The parts of a node are evaluated by `recur`; the contract below passes from the parts to
the node, and so to evaluation at every depth. -/

/-- The entry holds a value of the program and, at an `nbr` slot, the literal that the
program has there. -/
def RoundInputs.Aligned (program : Expr) (inputs : RoundInputs) (put : Path × Value) : Prop :=
  put.2.Of program ∧
    (Path.endsIn put.1 .nbr → program.levelAt inputs.remembers put.1 = some (.literal put.2))

/-- The next part of the program stands at this position. -/
structure Expr.Placed (program : Expr) (ctx : Context) (slots : Nat) (e : Expr) : Prop where
  context : ctx.All (Value.Of program)
  expr : Expr.Of program e
  opens : ctx.Opens program slots (program.opened e)

theorem Value.Of.aligned {program : Expr} {ctx : Context} {slot : Slot} {v : Value}
    (hv : v.Of program) (hkind : slot.kind ≠ .nbr) :
    ctx.inputs.Aligned program ((ctx.nest slot).path, v) := by
  refine ⟨hv, ?_⟩
  intro hends
  simp only [Context.nest, Path.endsIn_push, decide_eq_true_eq] at hends
  exact absurd hends hkind

/-- The part behind a slot stands one level deeper. -/
theorem Expr.Placed.enter {program opener part : Expr} {ctx : Context} {slot : Slot}
    {slots : Nat} (halign : program.Alignable) (hctx : ctx.All (Value.Of program))
    (hopens : ctx.Opens program slots [opener]) (hslot : slot.index = UInt32.ofNat slots)
    (hbehind : program.behind opener slot (ctx.inputs.remembers (ctx.nest slot).path) = some part)
    (hpart : Expr.Of program part) : program.Placed (ctx.nest slot) 0 part :=
  ⟨hctx.nest slot, hpart, hopens.nest halign hslot hbehind (hpart.nodes part.self_mem_nodes)⟩

/-- The value is a built-in that can be called, or one that the program can pass around. -/
def Value.Callable (program : Expr) (v : Value) : Prop := (∃ b, v = .builtin b) ∨ v.Of program

namespace Eval

variable {program : Expr} {recur : Expr → Context → Eval Value} {ctx : Context} {slots : Nat}

/-- What holds of an evaluation in its place: it opens the slots of its level, and what it
yields and records is aligned. -/
def Aligns (program : Expr) (recur : Expr → Context → Eval Value) : Prop :=
  ∀ {ctx slots e}, program.Placed ctx slots e →
    (recur e ctx).Meets slots (slots + (program.opened e).length) (ctx.inputs.Aligned program)
      (Value.Of program)

/-- A literal yields what it holds. -/
def KeepsLiterals (recur : Expr → Context → Eval Value) : Prop :=
  ∀ (v : Value) (ctx : Context) (slots : Nat) (good : Path × Value → Prop),
    (recur (.literal v) ctx).Meets slots slots good (· = v)

section Parts

variable (halign : program.Alignable) (hrecur : Aligns program recur)

include hrecur in
theorem meets_evalAll {es : List Expr} (hctx : ctx.All (Value.Of program))
    (hes : ∀ e ∈ es, Expr.Of program e) (hopens : ctx.Opens program slots (program.openedAll es)) :
    (evalAll recur ctx es).Meets slots (slots + (program.openedAll es).length)
      (ctx.inputs.Aligned program) (fun vs => ∀ v ∈ vs, v.Of program) := by
  induction es generalizing slots with
  | nil => exact meets_pure (by simp)
  | cons e rest ih =>
      rw [Expr.openedAll_cons] at hopens ⊢
      rw [evalAll, List.length_append, ← Nat.add_assoc]
      have hhead := hrecur ⟨hctx, hes e (by simp), hopens.left⟩
      have hrest := ih (fun e' he' => hes e' (List.mem_cons_of_mem _ he')) hopens.right
      refine hhead.bind ?_
      intro v hv
      refine hrest.bind ?_
      intro vs hvs
      refine meets_pure ?_
      intro w hw
      rcases List.mem_cons.mp hw with rfl | hw
      · exact hv
      · exact hvs w hw

include halign hrecur

/-- Applying what the program passes around opens one slot and enters it if it is a lambda, and no
slot if the program has none. -/
theorem meets_applyTo {f : Value} {args : List Value} {function : Expr} {exprs : List Expr}
    (hctx : ctx.All (Value.Of program)) (hf : f.Of program) (hargs : ∀ v ∈ args, v.Of program)
    (hopens : ctx.Opens program slots
      (if program.hasLambdas then [.apply function exprs] else [])) :
    (applyTo recur f args ctx).Meets slots
      (slots + (if program.hasLambdas then [Expr.apply function exprs] else []).length)
      (ctx.inputs.Aligned program) (Value.Of program) := by
  cases f with
  | builtin b =>
      have hnone : program.hasLambdas = false := by
        by_contra hlambdas
        cases hf.free (by simpa using hlambdas)
      rw [hnone]
      exact meets_located fun v hv => Builtin.of_call hv hargs
  | closure code params body env =>
      obtain ⟨hlambda, hbody, henv⟩ := hf.closure
      rw [if_pos (Expr.hasLambdas_of_mem hlambda)] at hopens ⊢
      rw [applyTo_closure]
      split
      · exact meets_fail
      · refine meets_nextSlot.bind ?_
        rintro _ rfl
        refine Meets.inside (hrecur ⟨(hctx.nest _).called henv hargs, hbody, ?_⟩)
        exact hopens.nest halign rfl (Expr.bodyOf_of_mem halign.codes hlambda)
          (hbody.nodes body.self_mem_nodes)
  | _ => exact meets_fail

/-- Combining two contributions records nothing and leaves the open slots as they are. -/
theorem meets_combine {f : Value} {args : List Value} (hctx : ctx.All (Value.Of program))
    (hf : f.Callable program) (hargs : ∀ v ∈ args, v.Of program) :
    (inside (applyTo recur f args ctx.silent)).Meets slots slots (ctx.inputs.Aligned program)
      (Value.Of program) := by
  rcases hf with ⟨b, rfl⟩ | hf
  · exact Meets.inside (meets_located fun v hv => Builtin.of_call hv hargs)
  · have hopens : ctx.silent.Opens program 0
        (if program.hasLambdas then [.apply default []] else []) := .of_silent rfl _
    exact Meets.inside (meets_applyTo halign hrecur hctx.silent hf hargs hopens)

variable (hliteral : KeepsLiterals recur)

include hliteral in
/-- The function of an application is a built-in that is named, or something that the
program passes around; only the latter opens a slot. -/
theorem meets_apply {function : Expr} {args : List Expr}
    (h : program.Placed ctx slots (.apply function args)) :
    (step recur (.apply function args) ctx).Meets slots
      (slots + (program.opened (Expr.apply function args)).length) (ctx.inputs.Aligned program)
      (Value.Of program) := by
  obtain ⟨hctx, hexpr, hopens⟩ := h
  obtain ⟨hfunction, hargs⟩ := hexpr.apply
  rw [step_apply]
  by_cases hnamed : ∃ b, function = .literal (.builtin b)
  · obtain ⟨b, rfl⟩ := hnamed
    rw [Expr.opened_call] at hopens ⊢
    refine (hliteral _ ctx slots _).bind ?_
    rintro _ rfl
    refine (meets_evalAll hrecur hctx hargs hopens).bind ?_
    intro vs hvs
    exact meets_located fun v hv => Builtin.of_call hv hvs
  · have hpassed := hfunction.resolve_left hnamed
    rw [program.opened_apply fun b hb => hnamed ⟨b, hb⟩] at hopens ⊢
    rw [List.length_append, List.length_append, ← Nat.add_assoc, ← Nat.add_assoc]
    refine (hrecur ⟨hctx, hpassed, hopens.left.left⟩).bind ?_
    intro f hf
    refine (meets_evalAll hrecur hctx hargs hopens.left.right).bind ?_
    intro vs hvs
    have hlast := hopens.right
    rw [List.length_append, ← Nat.add_assoc] at hlast
    exact meets_applyTo halign hrecur hctx hf hvs hlast

theorem meets_branch {condition thenSide elseSide : Expr}
    (h : program.Placed ctx slots (.branch condition thenSide elseSide)) :
    (step recur (.branch condition thenSide elseSide) ctx).Meets slots
      (slots + (program.opened (Expr.branch condition thenSide elseSide)).length)
      (ctx.inputs.Aligned program) (Value.Of program) := by
  obtain ⟨hctx, hexpr, hopens⟩ := h
  obtain ⟨hcondition, hsides⟩ := hexpr.branch
  rw [Expr.opened_branch] at hopens ⊢
  rw [step_branch, List.length_append, List.length_singleton, ← Nat.add_assoc]
  refine (hrecur ⟨hctx, hcondition, hopens.left⟩).bind ?_
  intro c hc
  refine (meets_located fun _ _ => trivial).bind ?_
  intro taken _
  refine meets_nextSlot.bind ?_
  rintro _ rfl
  have hside : program.Placed
      (ctx.nest (.branch (UInt32.ofNat (slots + (program.opened condition).length)) taken)) 0
      (if taken then thenSide else elseSide) :=
    .enter halign hctx hopens.right rfl rfl (hsides taken)
  refine (hrecur hside).inside.bind ?_
  intro v hv
  exact meets_record_return (fun _ => hv.aligned (by simp [Slot.kind])) hv

theorem meets_rep {init update : Expr} {name : String}
    (h : program.Placed ctx slots (.rep init name update)) :
    (step recur (.rep init name update) ctx).Meets slots
      (slots + (program.opened (Expr.rep init name update)).length)
      (ctx.inputs.Aligned program) (Value.Of program) := by
  obtain ⟨hctx, hexpr, hopens⟩ := h
  obtain ⟨hinit, hupdate⟩ := hexpr.rep
  rw [Expr.opened_rep] at hopens ⊢
  rw [step_rep]
  refine meets_nextSlot.bind ?_
  rintro _ rfl
  have hvalue : (repAt recur init name update (ctx.nest (.rep (UInt32.ofNat slots)))).Meets
      (slots + 1) (slots + 1) (ctx.inputs.Aligned program) (Value.Of program) := by
    unfold repAt
    cases hremembered : (ctx.nest (.rep (UInt32.ofNat slots))).remembered with
    | none =>
        have hbehind : program.behind (.rep init name update) (.rep (UInt32.ofNat slots))
            (ctx.inputs.remembers (ctx.nest (.rep (UInt32.ofNat slots))).path) = some init := by
          have hfresh : ctx.inputs.remembers (ctx.nest (.rep (UInt32.ofNat slots))).path = false :=
            congrArg Option.isSome hremembered
          rw [hfresh]
          rfl
        exact (hrecur (Expr.Placed.enter halign hctx hopens rfl hbehind hinit)).inside
    | some previous =>
        have hbehind : program.behind (.rep init name update) (.rep (UInt32.ofNat slots))
            (ctx.inputs.remembers (ctx.nest (.rep (UInt32.ofNat slots))).path) = some update := by
          have hkept : ctx.inputs.remembers (ctx.nest (.rep (UInt32.ofNat slots))).path = true :=
            congrArg Option.isSome hremembered
          rw [hkept]
          rfl
        have hplaced := Expr.Placed.enter halign hctx hopens rfl hbehind hupdate
        have hprevious : previous.Of program := hctx.inputs.state _ _ hremembered
        exact (hrecur { hplaced with context := hplaced.context.bind name hprevious }).inside
  refine hvalue.bind ?_
  intro v hv
  exact meets_record_return (fun _ => hv.aligned (by simp [Slot.kind])) hv

omit hrecur in
include hliteral in
theorem meets_nbr {body : Expr} (h : program.Placed ctx slots (.nbr body)) :
    (step recur (.nbr body) ctx).Meets slots (slots + (program.opened (Expr.nbr body)).length)
      (ctx.inputs.Aligned program) (Value.Of program) := by
  obtain ⟨hctx, hexpr, hopens⟩ := h
  rw [Expr.opened_nbr] at hopens ⊢
  obtain ⟨literal, rfl⟩ := halign.literals (hexpr.nodes (Expr.self_mem_nodes _))
  rw [step_nbr]
  refine meets_nextSlot.bind ?_
  rintro _ rfl
  unfold nbrAt
  cases hfocus : ctx.focus with
  | self =>
      refine (hliteral literal _ 0 _).inside.bind ?_
      rintro v rfl
      refine meets_record_return ?_ hexpr.nbr.literal
      intro hrecording
      refine ⟨hexpr.nbr.literal, ?_⟩
      intro _
      exact hopens.levelAt_nest halign rfl hrecording
  | neighbor id exported =>
      dsimp only
      split
      · rename_i v hv
        exact meets_pure (hctx.focus id exported hfocus _ v hv)
      · intro y hy
        cases hy

/-- Combining the neighbors in turn keeps to values of the program and records nothing
aligned wrongly: a generator that reads a neighbor records nothing at all. -/
theorem meets_foldNeighbors {generator : Expr} {combine acc : Value}
    {neighbors : List (DeviceId × Export)} (hctx : ctx.All (Value.Of program))
    (hgenerator : Expr.Of program generator) (hcombine : combine.Callable program)
    (hneighbors : ∀ entry ∈ neighbors, entry.2.All (Value.Of program)) (hacc : acc.Of program) :
    (foldNeighbors recur generator combine ctx neighbors acc).Meets slots slots
      (ctx.inputs.Aligned program) (Value.Of program) := by
  induction neighbors generalizing acc with
  | nil => exact meets_pure hacc
  | cons entry rest ih =>
      obtain ⟨id, exported⟩ := entry
      have hrest := fun {acc} => @ih acc fun entry hentry =>
        hneighbors entry (List.mem_cons_of_mem _ hentry)
      have hplaced : program.Placed (ctx.toSelf.focusedOn id exported) 0 generator :=
        ⟨hctx.toSelf.focusedOn id (hneighbors _ List.mem_cons_self), hgenerator,
          .of_silent rfl _⟩
      rw [foldNeighbors_cons]
      refine (hrecur hplaced).inside.present?.bind ?_
      intro contribution hcontribution
      cases contribution with
      | none => exact hrest hacc
      | some value =>
          have hargs : ∀ v ∈ [acc, value], v.Of program := by
            simp [hacc, hcontribution value rfl]
          exact (meets_combine halign hrecur hctx hcombine hargs).bind fun _ hacc => hrest hacc

theorem meets_fold {initial combine : Value} {generator : Expr} {includeSelf : Bool}
    (hplaced : program.Placed ctx 0 generator) (hinitial : initial.Of program)
    (hcombine : combine.Callable program) (hends : ¬Path.endsIn ctx.path .nbr) :
    (fold recur initial combine generator includeSelf ctx).Meets slots slots
      (ctx.inputs.Aligned program) (Value.Of program) := by
  have hctx := hplaced.context
  rw [fold_eq]
  have hself : program.Placed ctx.toSelf 0 generator :=
    ⟨hctx.toSelf, hplaced.expr, hplaced.opens⟩
  refine (hrecur hself).inside.bind ?_
  intro own hown
  have hstart : (foldStart recur ctx combine initial own includeSelf).Meets slots slots
      (ctx.inputs.Aligned program) (Value.Of program) := by
    unfold foldStart
    split
    · exact meets_combine halign hrecur hctx hcombine (by simp [hinitial, hown])
    · exact meets_pure hinitial
  refine hstart.bind ?_
  intro start hstart
  refine (meets_foldNeighbors halign hrecur hctx hplaced.expr hcombine
    (fun _ hmem => hctx.aligned hmem) hstart).bind ?_
  intro result hresult
  exact meets_record_return (fun _ => ⟨hresult, fun h => absurd h hends⟩) hresult

include hliteral

omit halign in
/-- An accumulator yields something to call and opens the slots of its level. -/
theorem meets_accumulator {accumulator : Expr} (hctx : ctx.All (Value.Of program))
    (h : (∃ b, accumulator = .literal (.builtin b)) ∨ Expr.Of program accumulator)
    (hopens : ctx.Opens program slots (program.opened accumulator)) :
    (recur accumulator ctx).Meets slots (slots + (program.opened accumulator).length)
      (ctx.inputs.Aligned program) (Value.Callable program) := by
  rcases h with ⟨b, rfl⟩ | hexpr
  · refine (hliteral _ ctx slots _).mono ?_
    rintro _ rfl
    exact Or.inl ⟨b, rfl⟩
  · exact (hrecur ⟨hctx, hexpr, hopens⟩).mono fun _ hv => Or.inr hv

theorem meets_neighborFold {initial accumulator generator : Expr} {includeSelf : Bool}
    (h : program.Placed ctx slots (.neighborFold initial accumulator generator includeSelf)) :
    (step recur (.neighborFold initial accumulator generator includeSelf) ctx).Meets slots
      (slots +
        (program.opened (Expr.neighborFold initial accumulator generator includeSelf)).length)
      (ctx.inputs.Aligned program) (Value.Of program) := by
  obtain ⟨hctx, hexpr, hopens⟩ := h
  obtain ⟨hinitial, haccumulator, hgenerator⟩ := hexpr.neighborFold
  rw [Expr.opened_neighborFold] at hopens ⊢
  rw [step_neighborFold, List.length_append, List.length_append, List.length_singleton,
    ← Nat.add_assoc, ← Nat.add_assoc]
  refine (hrecur ⟨hctx, hinitial, hopens.left.left⟩).bind ?_
  intro start hstart
  refine (meets_accumulator hrecur hliteral hctx haccumulator hopens.left.right).bind ?_
  intro combine hcombine
  refine meets_nextSlot.bind ?_
  rintro _ rfl
  have hlast := hopens.right
  rw [List.length_append, ← Nat.add_assoc] at hlast
  refine meets_fold halign hrecur (.enter halign hctx hlast rfl rfl hgenerator) hstart hcombine ?_
  simp [Context.nest, Path.endsIn_push, Slot.kind]

/-- Each node is aligned if its parts are. -/
theorem step_aligns : Aligns program (step recur) := by
  intro ctx slots e h
  cases e with
  | literal v => exact meets_pure h.expr.literal
  | var name => exact meets_located fun v hv => h.context.lookup hv
  | sense name => exact meets_located fun v hv => h.context.sense hv
  | neighborSense name => exact meets_located fun v hv => h.context.neighborSense hv
  | selfId => exact meets_pure (.of_isData rfl)
  | lambda code params body => exact meets_pure (.of_lambda h.expr h.context.env)
  | apply function args => exact meets_apply halign hrecur hliteral h
  | letIn name value body =>
      obtain ⟨hctx, hexpr, hopens⟩ := h
      obtain ⟨hvalue, hbody⟩ := hexpr.letIn
      rw [Expr.opened_letIn] at hopens ⊢
      rw [step_letIn, List.length_append, ← Nat.add_assoc]
      refine (hrecur ⟨hctx, hvalue, hopens.left⟩).bind ?_
      intro v hv
      have hplaced :
          program.Placed (ctx.bind name v) (slots + (program.opened value).length) body :=
        ⟨hctx.bind name hv, hbody, hopens.right⟩
      exact hrecur hplaced
  | branch condition thenSide elseSide => exact meets_branch halign hrecur h
  | rep init name update => exact meets_rep halign hrecur h
  | nbr body => exact meets_nbr halign hliteral h
  | neighborFold initial accumulator generator includeSelf =>
      exact meets_neighborFold halign hrecur hliteral h

end Parts

theorem eval_keepsLiterals (depth : Nat) : KeepsLiterals (eval depth) := by
  intro v ctx slots good
  cases depth with
  | zero => exact meets_fail
  | succ depth => exact meets_pure rfl

/-- Evaluation is aligned however deep it nests. -/
theorem eval_aligns (halign : program.Alignable) (depth : Nat) : Aligns program (eval depth) := by
  induction depth with
  | zero => exact fun _ => meets_fail
  | succ depth ih => exact step_aligns halign ih (eval_keepsLiterals depth)

end Eval

end FieldCalculus
