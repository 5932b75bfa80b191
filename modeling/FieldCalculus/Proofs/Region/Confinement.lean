import FieldCalculus.Proofs.Lifetime
import FieldCalculus.Proofs.Nesting
import FieldCalculus.Proofs.Relocation

/-!
Programs confined to one side of a branch. A device that takes the side does what it would do if
the program of the side were all it runs, only below the path of the side, and so it goes on from
round to round. What devices on the other side export does not reach it.
-/

namespace FieldCalculus

theorem Path.endsIn_append (base : Path) {path : Path} (h : path ≠ Path.root) (kind : SlotKind) :
    Path.endsIn (base ++ path) kind = Path.endsIn path kind := by
  rw [endsIn, List.getLast?_append_of_ne_nil base h, endsIn]

/-! ## Confined exports -/

/-- The outer export holds below `base` what the inner one holds, and beside it the result. -/
structure Export.Confined (base : Path) (outer inner : Export) : Prop where
  root : outer.get? Path.root = inner.get? Path.root
  below : ∀ path, outer.get? (base ++ path) = inner.get? path
  beside : ∀ path ≠ Path.root, ¬base <+: path → outer.get? path = none

theorem Export.confined_ofPuts {base : Path} (hbase : base ≠ Path.root)
    (puts : List (Path × Value)) (value : Value) :
    (ofPuts (movedEntries base puts ++ [(base, value)]) value).Confined base (ofPuts puts value) := by
  have hfound : ∀ path ≠ Path.root,
      (ofPuts (movedEntries base puts ++ [(base, value)]) value).get? path =
        if path = base then some value else (Dict.ofList (movedEntries base puts)).find? path := by
    intro path hroot
    rw [get?_ofPuts, if_neg hroot, Dict.ofList_concat, Dict.find?_insert]
  constructor
  case root => rw [get?_ofPuts, get?_ofPuts, if_pos rfl, if_pos rfl]
  case below =>
    intro path
    have hnonroot : base ++ path ≠ Path.root := fun heq => hbase (List.append_eq_nil_iff.mp heq).1
    have hwhole : base ++ path = base ↔ path = Path.root := List.append_right_eq_self
    rw [hfound _ hnonroot, find?_ofList_movedEntries, get?_ofPuts]
    simp only [hwhole]
  case beside =>
    intro path hroot hextends
    have hne : path ≠ base := by
      rintro rfl
      exact hextends List.prefix_rfl
    rw [hfound path hroot, if_neg hne]
    by_contra hsome
    obtain ⟨found, hput⟩ := Option.ne_none_iff_exists'.mp hsome
    obtain ⟨put, -, heq⟩ := List.mem_map.mp (Dict.mem_of_find?_ofList hput)
    exact hextends ⟨put.1, congrArg Prod.fst heq⟩

/-- To programs, confined exports are equal when the inner ones are. -/
theorem Export.Confined.equals {base : Path} {outer inner outer' inner' : Export}
    (h : outer.Confined base inner) (h' : outer'.Confined base inner') :
    outer.equals outer' = inner.equals inner' := by
  rw [Bool.eq_iff_iff, Export.equals_iff, Export.equals_iff]
  constructor
  · intro hequal path
    rw [← h.below, ← h'.below]
    exact hequal _
  · intro hequal path
    by_cases hroot : path = Path.root
    · rw [hroot, h.root, h'.root]
      exact hequal _
    · by_cases hextends : base <+: path
      · obtain ⟨rest, rfl⟩ := hextends
        rw [h.below, h'.below]
        exact hequal rest
      · rw [h.beside path hroot hextends, h'.beside path hroot hextends]
        exact .none

/-! ## One side of a branch -/

namespace Region

/-- Where the program of a side is evaluated. -/
def side (taken : Bool) : Path := [.branch 0 taken]

variable {region : String} {thenSide elseSide : Expr} {inputs : RoundInputs} {taken : Bool}

/-- What a branch makes of the program of the side that is taken. -/
def onSide (taken : Bool) : Except Interrupt (Yield Value) → Except EvalError Evaluation
  | .ok y => .ok ⟨y.value, .ofPuts (y.puts ++ [(side taken, y.value)]) y.value⟩
  | .error (.failed e) => .error e
  | .error (.absent path) => .error ⟨.unalignedRead, path⟩

theorem evaluate_branch (hreads : inputs.sensors.sense region = some (.bool taken)) :
    evaluate (.branch (.sense region) thenSide elseSide) inputs =
      onSide taken (Eval.eval (depthLimit - 1) (if taken then thenSide else elseSide)
        { Context.root inputs with path := side taken } 0) := by
  have hdepth : depthLimit = 1048575 + 1 := rfl
  have hsense : Eval.eval 1048575 (.sense region) (.root inputs) = pure (.bool taken) := by
    have hinputs : (Context.root inputs).inputs = inputs := rfl
    change Eval.located _ ((Context.root inputs).sense region) = _
    rw [Context.sense, hinputs, hreads]
    rfl
  have hcondition : Eval.eval 1048575 (.sense region) (.root inputs) 0 =
      .ok ⟨.bool taken, 0, []⟩ := by
    rw [hsense]
    rfl
  have hplace : (Context.root inputs).nest (.branch (UInt32.ofNat 0) taken) =
      { Context.root inputs with path := side taken } := rfl
  rw [evaluate, evaluateIn, hdepth, Eval.eval_branch_run thenSide elseSide hcondition rfl, hplace]
  change _ = onSide taken (Eval.eval 1048575 _ _ 0)
  cases Eval.eval 1048575 (if taken then thenSide else elseSide)
      { Context.root inputs with path := side taken } 0 with
  | ok y => rfl
  | error interrupt => cases interrupt <;> rfl

/-! ## The side that is taken -/

theorem evaluate_inside (elseSide : Expr) {there here : RoundInputs} {limit : Nat}
    (hnests : Eval.NestsAtMost limit thenSide) (hlimit : limit < depthLimit)
    (hreads : there.sensors.sense region = some (.bool true))
    (hcarries : there.Carries (side true) here) :
    (∀ result, evaluate thenSide here = .ok result → ∃ exported,
      evaluate (.branch (.sense region) thenSide elseSide) there = .ok ⟨result.value, exported⟩ ∧
        exported.Confined (side true) result.exported) ∧
    ∀ error, evaluate thenSide here = .error error →
      evaluate (.branch (.sense region) thenSide elseSide) there =
        .error ⟨error.fault, side true ++ error.path⟩ := by
  -- The branch takes one level of the depth, which a program that does not nest so deep can spare.
  have hdepth : Eval.eval (depthLimit - 1) thenSide { Context.root there with path := side true } =
      (Eval.eval depthLimit thenSide (.root here)).moved (side true) := by
    rw [hnests _ (Nat.le_sub_one_of_lt hlimit), ← hnests _ (Nat.le_of_lt hlimit)]
    exact Eval.eval_of_carries hcarries depthLimit thenSide []
  rw [evaluate_branch hreads, if_pos rfl, hdepth, Eval.moved, evaluate, evaluateIn]
  cases Eval.eval depthLimit thenSide (.root here) 0 with
  | ok y =>
      refine ⟨?_, ?_⟩
      · rintro result ⟨⟩
        exact ⟨_, rfl, Export.confined_ofPuts (List.cons_ne_nil _ _) y.puts y.value⟩
      · rintro error ⟨⟩
  | error interrupt =>
      refine ⟨?_, ?_⟩
      · intro result hresult
        cases interrupt <;> cases hresult
      · intro error herror
        cases interrupt <;> cases herror <;> rfl

/-- What a device on the other side exports is not on this one. -/
theorem get?_outside {result : Evaluation}
    (hreads : inputs.sensors.sense region = some (.bool false))
    (hresult : evaluate (.branch (.sense region) thenSide elseSide) inputs = .ok result)
    (path : Path) : result.exported.get? (side true ++ path) = none := by
  have hbeside : ¬side false <+: side true ++ path := by
    intro hextends
    cases (List.cons_prefix_cons.mp hextends).1
  rw [evaluate_branch hreads, if_neg Bool.false_ne_true] at hresult
  have hputs := Eval.eval_puts (depthLimit - 1) elseSide
    { Context.root inputs with path := side false } 0
  cases heval : Eval.eval (depthLimit - 1) elseSide
      { Context.root inputs with path := side false } 0 with
  | error interrupt =>
      rw [heval] at hresult
      cases interrupt <;> cases hresult
  | ok y =>
      rw [heval] at hresult
      cases hresult
      by_contra hsome
      obtain ⟨value, hvalue⟩ := Option.ne_none_iff_exists'.mp hsome
      -- all that is exported besides the result lies below the other side, or is its value
      rcases List.mem_append.mp (Export.mem_of_get?_ofPuts (List.cons_ne_nil _ _) hvalue) with
        hput | hlast
      · exact hbeside (hputs y heval _ hput).1
      · have hown : side true ++ path = side false :=
          congrArg Prod.fst (List.mem_singleton.mp hlast)
        rw [hown] at hbeside
        exact hbeside List.prefix_rfl

end Region

/-! ## Rounds of confined devices -/

/-- The outer device has below `base` what the inner one has. -/
structure Device.Confined (base : Path) (outer inner : Device) : Prop where
  id : outer.id = inner.id
  pacing : outer.pacing = inner.pacing
  remembered : ∀ path ≠ Path.root, outer.state.get? (base ++ path) = inner.state.get? path
  lastExport : Option.Rel (Export.Confined base) outer.lastExport inner.lastExport
  quietRounds : outer.quietRounds = inner.quietRounds

/-- In the outer setting the device meets below `base` with what it meets with in the inner one. -/
structure Setting.Confined (base : Path) (id : DeviceId) (outer inner : Setting) : Prop where
  sensors : outer.sensors = inner.sensors
  accepts : outer.accepts = inner.accepts
  exported : ∀ other ≠ id, ∀ path ≠ Path.root,
    (outer.snapshot.exportOf other).get? (base ++ path) =
      (inner.snapshot.exportOf other).get? path

/-- What a round shows: its value and whether it was published, or the cause of its failure. -/
def RoundOutcome.shown : RoundOutcome → Except Fault (Value × Bool)
  | .ok report => .ok (report.value, report.published)
  | .error failure => .error failure.error.fault

namespace Device.Confined

variable {base : Path} {outer inner : Device} {s t : Setting}

theorem carries (h : outer.Confined base inner) (hsetting : s.Confined base inner.id t) :
    (outer.inputs s).Carries base (inner.inputs t) where
  device := h.id
  sensors := hsetting.sensors
  remembered := h.remembered
  exported := hsetting.exported

/-- Change is detected, and a heartbeat is due, in the outer device when in the inner one. -/
theorem sends (h : outer.Confined base inner) {exported exported' : Export}
    (hexported : exported.Confined base exported') :
    outer.sends exported = inner.sends exported' := by
  have hchanged : outer.isChanged exported = inner.isChanged exported' := by
    have hlast := h.lastExport
    unfold isChanged
    generalize outer.lastExport = last at hlast ⊢
    generalize inner.lastExport = last' at hlast ⊢
    cases hlast with
    | none => rfl
    | some hlast => exact congrArg not (hlast.equals hexported)
  rw [Device.sends, Device.sends, hchanged, isDue, isDue, h.pacing, h.quietRounds]

theorem remembered_absorb (h : outer.Confined base inner) {exported exported' : Export}
    (hexported : exported.Confined base exported') {path : Path} (hpath : path ≠ Path.root) :
    (outer.state.absorb exported).get? (base ++ path) =
      (inner.state.absorb exported').get? path := by
  rw [DeviceState.get?_absorb_eq, DeviceState.get?_absorb_eq, Path.endsIn_append base hpath,
    hexported.below, h.remembered path hpath]

/-- A round of the outer device shows what that of the inner one shows, and offers what it
offers. -/
theorem round {region : String} {thenSide elseSide : Expr} {limit : Nat}
    (hnests : Eval.NestsAtMost limit thenSide) (hlimit : limit < depthLimit)
    (h : outer.Confined (Region.side true) inner)
    (hprogram : outer.program = .branch (.sense region) thenSide elseSide)
    (hown : inner.program = thenSide)
    (hsetting : s.Confined (Region.side true) inner.id t)
    (hreads : s.sensors.sense region = some (.bool true)) :
    (outer.round s).1.Confined (Region.side true) (inner.round t).1 ∧
      (outer.round s).2.shown = (inner.round t).2.shown ∧
      Option.Rel (fun m n => m.exported.Confined (Region.side true) n.exported)
        (outer.offer s) (inner.offer t) := by
  have hinside := Region.evaluate_inside elseSide hnests hlimit hreads
    (h.carries hsetting)
  rw [← hprogram, ← hown] at hinside
  cases houtcome : evaluate inner.program (inner.inputs t) with
  | error error =>
      have houter := hinside.2 error houtcome
      rw [round_of_error houter, round_of_error houtcome, offer_of_error houter,
        offer_of_error houtcome]
      exact ⟨⟨h.id, h.pacing, h.remembered, h.lastExport, h.quietRounds⟩, rfl, .none⟩
  | ok result =>
      obtain ⟨exported, houter, hexported⟩ := hinside.1 result houtcome
      have hsends := h.sends hexported
      rw [round_of_ok houter, round_of_ok houtcome, offer_of_ok houter, offer_of_ok houtcome]
      dsimp only
      rw [hsends, hsetting.accepts]
      refine ⟨⟨h.id, h.pacing, fun path hpath => h.remembered_absorb hexported hpath, ?_, ?_⟩,
        rfl, ?_⟩
      · dsimp only
        split
        · exact .some hexported
        · exact h.lastExport
      · dsimp only
        rw [h.quietRounds]
      · split
        · exact .some hexported
        · exact .none

end Device.Confined

end FieldCalculus
