import FieldCalculus.Proofs.Alignment

/-!
The rounds that devices can come to by running one program, each on what its own earlier
rounds and those of its neighbors left. Between any two of them, values at `nbr` slots are
aligned.
-/

namespace FieldCalculus

mutual

/-- A device finishes a round of the program. -/
inductive Round (program : Expr) : RoundInputs → Evaluation → Prop where
  | ran {inputs : RoundInputs} {result : Evaluation}
    (sensors : inputs.sensors.All fun v => v.isData)
    (state : Reached program inputs.state)
    (neighbors : ∀ entry ∈ inputs.neighbors.entries, Sent program entry.2)
    (outcome : evaluate program inputs = .ok result) : Round program inputs result

/-- Earlier rounds of the program leave this state. -/
inductive Reached (program : Expr) : DeviceState → Prop where
  | fresh : Reached program .empty
  | absorbed {inputs : RoundInputs} {result : Evaluation} (round : Round program inputs result) :
    Reached program (inputs.state.absorb result.exported)

/-- A round of the program has this export. -/
inductive Sent (program : Expr) : Export → Prop where
  | sent {inputs : RoundInputs} {result : Evaluation} (round : Round program inputs result) :
    Sent program result.exported

end

/-- A round on values of the program exports values of the program, and at an `nbr` slot
the literal that the program has there. -/
theorem evaluate_aligned {program : Expr} (halign : program.Alignable) {inputs : RoundInputs}
    {result : Evaluation} (hinputs : inputs.All (Value.Of program))
    (h : evaluate program inputs = .ok result) {path : Path} {v : Value}
    (hv : result.exported.get? path = some v) : inputs.Aligned program (path, v) := by
  unfold evaluate evaluateIn at h
  split at h
  · rename_i y hy
    cases h
    have hplaced : program.Placed (.root inputs) 0 program :=
      ⟨.root hinputs, ⟨List.Subset.refl _, halign.calls⟩,
        .of_level program.self_mem_nodes fun _ => Expr.levelAt_root program _⟩
    obtain ⟨hvalue, -, hputs⟩ := Eval.eval_aligns halign depthLimit hplaced y hy
    by_cases hroot : path = Path.root
    · subst hroot
      rw [Export.get?_ofPuts, if_pos rfl, Option.some.injEq] at hv
      subst hv
      refine ⟨hvalue, ?_⟩
      intro hends
      rw [Path.endsIn_root] at hends
      cases hends
    · exact hputs (path, v) (Export.mem_of_get?_ofPuts hroot hv)
  · cases h
  · cases h

/-- What a round on values of the program exports is made of values of the program. -/
theorem evaluate_of {program : Expr} (halign : program.Alignable) {inputs : RoundInputs}
    {result : Evaluation} (hinputs : inputs.All (Value.Of program))
    (h : evaluate program inputs = .ok result) : result.exported.All (Value.Of program) :=
  fun _ _ hv => (evaluate_aligned halign hinputs h hv).1

mutual

/-- Every round of the program runs on values of the program. -/
theorem Round.inputs_of {program : Expr} (halign : program.Alignable) {inputs : RoundInputs}
    {result : Evaluation} (h : Round program inputs result) :
    inputs.All (Value.Of program) :=
  match h with
  | .ran hsensors hstate hneighbors _ => by
      refine ⟨⟨?_, ?_⟩, hstate.of halign, ?_⟩
      · exact fun name v hv => .of_isData (hsensors.own name v hv)
      · exact fun name id v hv => .of_isData (hsensors.relative name id v hv)
      · intro id exported hfound
        exact (hneighbors _ (Dict.find?_eq_some_iff.mp hfound)).of halign

theorem Reached.of {program : Expr} (halign : program.Alignable) {state : DeviceState}
    (h : Reached program state) : state.All (Value.Of program) :=
  match h with
  | .fresh => by
      intro path v hv
      cases hv
  | .absorbed hround => by
      have hinputs := hround.inputs_of halign
      cases hround with
      | ran _ _ _ houtcome => exact hinputs.state.absorb (evaluate_of halign hinputs houtcome)

theorem Sent.of {program : Expr} (halign : program.Alignable) {exported : Export}
    (h : Sent program exported) : exported.All (Value.Of program) :=
  match h with
  | .sent hround => by
      have hinputs := hround.inputs_of halign
      cases hround with
      | ran _ _ _ houtcome => exact evaluate_of halign hinputs houtcome

end

/-- What a round exports at an `nbr` slot is the literal that the program has there. -/
theorem Round.levelAt_nbr {program : Expr} (halign : program.Alignable) {inputs : RoundInputs}
    {result : Evaluation} (h : Round program inputs result) {path : Path} {v : Value}
    (hends : Path.endsIn path .nbr) (hv : result.exported.get? path = some v) :
    program.levelAt inputs.remembers path = some (.literal v) := by
  have hinputs := h.inputs_of halign
  cases h with
  | ran _ _ _ houtcome => exact (evaluate_aligned halign hinputs houtcome hv).2 hends

/-- Any two rounds of an alignable program, on whatever devices, states, readings and
neighbors, hold the same value at every `nbr` slot that both record. Only where a first
value of a `rep` opens slots itself must both rounds be past it or neither. -/
theorem nbr_values_agree {program : Expr} (halign : program.Alignable) {a b : RoundInputs}
    {x y : Evaluation} (ha : Round program a x) (hb : Round program b y) {path : Path}
    (hends : Path.endsIn path .nbr)
    (hreps : program.PlainInits ∨ ∀ start, start <+: path → Path.endsIn start .rep →
      a.remembers start = b.remembers start)
    {v w : Value} (hv : x.exported.get? path = some v) (hw : y.exported.get? path = some w) :
    v = w := by
  have hleft := ha.levelAt_nbr halign hends hv
  have hright := hb.levelAt_nbr halign hends hw
  have hsame : ∀ start, start <+: path → Path.endsIn start .rep →
      a.remembers start = b.remembers start := by
    rcases hreps with hplain | hsame
    · intro start hstart hrep
      have hne : start ≠ path := by
        rintro rfl
        cases Path.endsIn_unique hrep hends
      rw [Expr.remembered_of_levelAt hplain hleft hstart hne hrep,
        Expr.remembered_of_levelAt hplain hright hstart hne hrep]
    · exact hsame
  rw [Expr.levelAt_congr program hsame, hright] at hleft
  simp only [Option.some.injEq, Expr.literal.injEq] at hleft
  exact hleft.symm

/-- A reading that a device without neighbors has. -/
def flag (value : Bool) : SensorTable := SensorTable.empty.set "flag" (.bool value)

theorem flag_data (value : Bool) : (flag value).sensors.All fun v => v.isData := by
  constructor
  · intro name v hv
    change (Dict.empty.insert "flag" (Value.bool value)).find? name = some v at hv
    rw [Dict.find?_insert] at hv
    split at hv
    · cases hv
      rfl
    · cases hv
  · intro name id v hv
    cases hv

/-- The inputs of a device without neighbors. -/
def alone (value : Bool) (state : DeviceState) : RoundInputs :=
  ⟨⟨"a"⟩, (flag value).sensors, state, .empty⟩

theorem Round.of_alone {program : Expr} {value : Bool} {state : DeviceState} {result : Evaluation}
    (hstate : Reached program state) (h : evaluate program (alone value state) = .ok result) :
    Round program (alone value state) result := by
  refine .ran (flag_data value) hstate ?_ h
  intro entry hentry
  cases hentry

/-- What a round leaves that hears `result` in a `rep` and sends `sent`. -/
def heard (result sent : Bool) : Evaluation :=
  ⟨.bool result, .ofPuts
    [([.rep 0, .foldHood 0, .nbr 0], .bool sent), ([.rep 0, .foldHood 0], .bool result),
      ([.rep 0], .bool result)] (.bool result)⟩

/-- Hears neighbors only after its first value. -/
def hearsLater : Expr :=
  .rep (.literal (.bool false)) "x"
    (.foldPlus (.literal (.bool false)) (.literal (.builtin .or)) (.nbr (.literal (.bool true))))

theorem hearsLater_alignable : hearsLater.Alignable := by
  refine ⟨?_, ?_, fun _ => rfl, ?_⟩
  · intro body h
    simp [hearsLater, Expr.foldPlus, Expr.nodes, Value.nodes] at h
    exact ⟨_, h⟩
  · intro code params body params' body' h
    simp [hearsLater, Expr.foldPlus, Expr.nodes, Value.nodes] at h
  · unfold Expr.SlotsFit
    decide

/-- The state of a device after its first round of `hearsLater`. -/
def started : DeviceState :=
  DeviceState.empty.absorb (Export.ofPuts [([.rep 0], .bool false)] (.bool false))

theorem started_reached : Reached hearsLater started := by
  have hfirst : Round hearsLater (alone true .empty)
      ⟨.bool false, .ofPuts [([.rep 0], .bool false)] (.bool false)⟩ := .of_alone .fresh rfl
  exact .absorbed hfirst

theorem hearsLater_alone : Round hearsLater (alone true started) (heard false true) :=
  .of_alone started_reached rfl

/-- A device that hears another one. -/
def beside : RoundInputs :=
  ⟨⟨"b"⟩, (flag true).sensors, started,
    Dict.ofList [(⟨"a"⟩, (heard false true).exported)]⟩

theorem hearsLater_beside : Round hearsLater beside (heard true true) := by
  refine .ran (flag_data true) started_reached ?_ (by cbv)
  intro entry hentry
  rcases Entries.mem_insertAll hentry with hgiven | hnone
  · rw [List.mem_singleton.mp hgiven]
    exact .sent hearsLater_alone
  · cases hnone

/-- A device alone and one beside it send the same, although they hear different values. -/
theorem hearsLater_values_agree :
    hearsLater.Alignable ∧ hearsLater.PlainInits ∧
      Round hearsLater (alone true started) (heard false true) ∧
      Round hearsLater beside (heard true true) ∧
      ∃ v w, (heard false true).exported.get? [.rep 0, .foldHood 0, .nbr 0] = some v ∧
        (heard true true).exported.get? [.rep 0, .foldHood 0, .nbr 0] = some w ∧ v = w := by
  have hplain : hearsLater.PlainInits := by
    intro init name update h
    simp [hearsLater, Expr.foldPlus, Expr.nodes, Value.nodes] at h
    rw [h.1]
    rfl
  have hv : (heard false true).exported.get? [.rep 0, .foldHood 0, .nbr 0] =
      some (.bool true) := rfl
  have hw : (heard true true).exported.get? [.rep 0, .foldHood 0, .nbr 0] =
      some (.bool true) := rfl
  exact ⟨hearsLater_alignable, hplain, hearsLater_alone, hearsLater_beside, _, _, hv, hw,
    nbr_values_agree hearsLater_alignable hearsLater_alone hearsLater_beside rfl (Or.inl hplain)
      hv hw⟩

/-! ## What each condition is for -/

/-- Hears neighbors both for its first value and for later ones. -/
def hearsTwice : Expr :=
  .rep
    (.foldPlus (.literal (.bool false)) (.literal (.builtin .or)) (.nbr (.literal (.bool false))))
    "x"
    (.foldPlus (.literal (.bool false)) (.literal (.builtin .or)) (.nbr (.literal (.bool true))))

theorem hearsTwice_first : Round hearsTwice (alone true .empty) (heard false false) :=
  .of_alone .fresh rfl

theorem hearsTwice_second :
    Round hearsTwice (alone true (DeviceState.empty.absorb (heard false false).exported))
      (heard false true) :=
  .of_alone (.absorbed hearsTwice_first) rfl

/-- Calls a built-in or a lambda, as the reading says, before it speaks to neighbors. -/
def callsEither : Expr :=
  .call .tuple
    [.apply
      (.call .mux [.sense "flag", .literal (.builtin .not), .lambda ⟨"same"⟩ ["x"] (.var "x")])
      [.literal (.bool false)],
      .nbr (.literal (.bool false)), .nbr (.literal (.bool true))]

/-- What a round of `callsEither` leaves when its call opens `called` slots. -/
def spoken (result : Bool) (called : UInt32) : Evaluation :=
  ⟨.tuple [.bool result, .bool false, .bool true], .ofPuts
    [([.nbr called], .bool false), ([.nbr (called + 1)], .bool true)]
    (.tuple [.bool result, .bool false, .bool true])⟩

theorem callsEither_builtin : Round callsEither (alone true .empty) (spoken true 0) :=
  .of_alone .fresh (by cbv)

theorem callsEither_lambda : Round callsEither (alone false .empty) (spoken false 1) :=
  .of_alone .fresh (by cbv)

/-- Speaks to neighbors if the condition holds. -/
def speaksIf (condition : Expr) (value : Bool) : Expr :=
  .branch condition (.nbr (.literal (.bool value))) (.literal .unit)

/-- Speaks at one of two branches, as the reading says, with `fillers` slots between them. -/
def speaksAround (fillers : Nat) : Expr :=
  .call .tuple
    (speaksIf (.sense "flag") true ::
      (List.replicate fillers (.nbr (.literal .unit)) ++
        [speaksIf (.call .not [.sense "flag"]) false]))

namespace Eval

/-- What `speaksIf` records at a position whose path is the root. -/
def spokenIf (index : UInt32) (holds value : Bool) : List (Path × Value) :=
  if holds then
    [([.branch index true, .nbr 0], .bool value), ([.branch index true], .bool value)]
  else [([.branch index false], .unit)]

theorem eval_speaksIf (depth : Nat) {inputs : RoundInputs} {condition : Expr} {holds : Bool}
    {slots : Nat} (value : Bool)
    (h : eval (depth + 2) condition (.root inputs) slots = .ok ⟨.bool holds, slots, []⟩) :
    ∃ v, eval (depth + 3) (speaksIf condition value) (.root inputs) slots =
      .ok ⟨v, slots + 1, spokenIf (UInt32.ofNat slots) holds value⟩ := by
  change ∃ v, step (eval (depth + 2)) (.branch _ _ _) _ slots = .ok ⟨v, slots + 1, _⟩
  rw [step_branch]
  cases holds with
  | false =>
      refine ⟨.unit, ?_⟩
      rw [bind_run h]
      rfl
  | true =>
      refine ⟨.bool value, ?_⟩
      rw [bind_run h]
      rfl

theorem eval_speaksAround (depth fillers : Nat) (value : Bool) :
    ∃ v puts, eval (depth + 4) (speaksAround fillers) (.root (alone value .empty)) 0 =
        .ok ⟨v, fillers + 2, spokenIf 0 value true ++
          (puts ++ spokenIf (UInt32.ofNat (fillers + 1)) (!value) false)⟩ ∧
      ∀ put ∈ puts, ∃ index, put.1 = [.nbr index] := by
  have hflag : eval (depth + 2) (.sense "flag") (.root (alone value .empty)) 0 =
      .ok ⟨.bool value, 0, []⟩ := rfl
  have hnot : eval (depth + 2) (.call .not [.sense "flag"]) (.root (alone value .empty))
      (fillers + 1) = .ok ⟨.bool (!value), fillers + 1, []⟩ := rfl
  have hfiller : ∀ slots, ∃ puts, eval (depth + 3) (.nbr (.literal .unit))
      (.root (alone value .empty)) slots = .ok ⟨.unit, slots + 1, puts⟩ ∧
        ∀ put ∈ puts, ∃ index, put.1 = [.nbr index] :=
    fun slots => ⟨[([.nbr (UInt32.ofNat slots)], .unit)], rfl, by simp⟩
  obtain ⟨first, hfirst⟩ := eval_speaksIf depth true hflag
  obtain ⟨puts, hfillers, hputs⟩ := evalAll_replicate_ok hfiller fillers 1
  obtain ⟨last, hlast⟩ := eval_speaksIf depth false hnot
  rw [Nat.add_comm 1 fillers] at hfillers
  have hargs := evalAll_cons_ok hfirst
    (evalAll_append_ok hfillers (evalAll_singleton_ok hlast))
  exact ⟨_, puts, eval_call_ok hargs rfl, hputs⟩

end Eval

/-- The slot of the second branch has the number of the first when there are as many slots
between them as there are numbers. -/
theorem speaksAround_round {fillers : Nat} (hwraps : UInt32.ofNat (fillers + 1) = 0)
    (value : Bool) :
    ∃ result, Round (speaksAround fillers) (alone value .empty) result ∧
      result.exported.get? [.branch 0 true, .nbr 0] = some (.bool value) := by
  obtain ⟨v, puts, heval, hputs⟩ := Eval.eval_speaksAround 1048572 fillers value
  have hdepth : depthLimit = 1048572 + 4 := rfl
  rw [hwraps] at heval
  generalize hall : Eval.spokenIf 0 value true ++ _ = all at heval
  have houtcome : evaluate (speaksAround fillers) (alone value .empty) =
      .ok ⟨v, .ofPuts all v⟩ := by
    rw [evaluate, evaluateIn, hdepth, heval]
  refine ⟨_, .of_alone .fresh houtcome, ?_⟩
  rw [Export.get?_ofPuts, if_neg (by decide), ← hall]
  apply Dict.find?_ofList_of_mem
  · cases value <;> simp [Eval.spokenIf]
  · intro other hother
    rcases List.mem_append.mp hother with hfirst | hrest
    · cases value <;> simp_all [Eval.spokenIf]
    · rcases List.mem_append.mp hrest with hfiller | hlast
      · obtain ⟨index, hindex⟩ := hputs _ hfiller
        cases hindex
      · cases value <;> simp_all [Eval.spokenIf]

/-- All fillers are one node. -/
theorem speaksAround_nodes (fillers : Nat) :
    (speaksAround fillers).nodes ⊆
      [speaksAround fillers, .literal (.builtin .tuple), .nbr (.literal .unit), .literal .unit] ++
        ((speaksIf (.sense "flag") true).nodes ++
          (speaksIf (.call .not [.sense "flag"]) false).nodes) := by
  rw [speaksAround, Expr.call, Expr.nodes, List.cons_subset, List.append_subset,
    Expr.nodesAll_subset]
  refine ⟨by simp, by simp [Expr.nodes, Value.nodes], ?_⟩
  intro e he node hnode
  simp only [List.mem_cons, List.mem_append, List.not_mem_nil, or_false] at he
  rcases he with rfl | hfiller | rfl
  · simp [hnode]
  · rw [List.eq_of_mem_replicate hfiller] at hnode
    simp only [Expr.nodes, Value.nodes, List.mem_cons, List.not_mem_nil, or_false] at hnode
    rcases hnode with rfl | rfl
    · simp
    · simp
  · simp [hnode]

/-- Any two rounds of the program hold the same values at the `nbr` slots that both record. -/
def Expr.NbrValuesAgree (program : Expr) : Prop :=
  ∀ {a b : RoundInputs} {x y : Evaluation}, Round program a x → Round program b y →
    ∀ (path : Path) {v w : Value}, Path.endsIn path .nbr → x.exported.get? path = some v →
      y.exported.get? path = some w → v = w

theorem hearsTwice_disagrees : hearsTwice.Alignable ∧ ¬hearsTwice.NbrValuesAgree := by
  refine ⟨⟨?_, ?_, fun _ => rfl, ?_⟩, ?_⟩
  · intro body h
    simp [hearsTwice, Expr.foldPlus, Expr.nodes, Value.nodes] at h
    rcases h with rfl | rfl
    · exact ⟨_, rfl⟩
    · exact ⟨_, rfl⟩
  · intro code params body params' body' h
    simp [hearsTwice, Expr.foldPlus, Expr.nodes, Value.nodes] at h
  · unfold Expr.SlotsFit
    decide
  · intro hagree
    cases hagree hearsTwice_first hearsTwice_second [.rep 0, .foldHood 0, .nbr 0] rfl rfl rfl

theorem callsEither_disagrees :
    callsEither.LiteralNbrs ∧ callsEither.CodesDistinct ∧ callsEither.SlotsFit ∧
      callsEither.PlainInits ∧ ¬callsEither.NbrValuesAgree := by
  refine ⟨?_, ?_, ?_, ?_, ?_⟩
  · intro body h
    simp [callsEither, Expr.call, Expr.nodes, Expr.nodesAll, Value.nodes] at h
    rcases h with rfl | rfl
    · exact ⟨_, rfl⟩
    · exact ⟨_, rfl⟩
  · intro code params body params' body' h h'
    simp [callsEither, Expr.call, Expr.nodes, Expr.nodesAll, Value.nodes] at h h'
    rw [h.2.2, h'.2.2]
  · unfold Expr.SlotsFit
    decide
  · intro init name update h
    simp [callsEither, Expr.call, Expr.nodes, Expr.nodesAll, Value.nodes] at h
  · intro hagree
    cases hagree callsEither_builtin callsEither_lambda [.nbr 1] rfl rfl rfl

theorem speaksAround_disagrees {fillers : Nat} (hwraps : UInt32.ofNat (fillers + 1) = 0) :
    (speaksAround fillers).LiteralNbrs ∧ (speaksAround fillers).CodesDistinct ∧
      (speaksAround fillers).callsBuiltins ∧ (speaksAround fillers).PlainInits ∧
      ¬(speaksAround fillers).NbrValuesAgree := by
  refine ⟨?_, ?_, ?_, ?_, ?_⟩
  · intro body h
    have hmem := speaksAround_nodes fillers h
    simp [speaksAround, speaksIf, Expr.call, Expr.nodes, Expr.nodesAll, Value.nodes] at hmem
    rcases hmem with rfl | rfl | rfl
    · exact ⟨_, rfl⟩
    · exact ⟨_, rfl⟩
    · exact ⟨_, rfl⟩
  · intro code params body params' body' h
    have hmem := speaksAround_nodes fillers h
    simp [speaksAround, speaksIf, Expr.call, Expr.nodes, Expr.nodesAll, Value.nodes] at hmem
  · have hargs : Expr.callsBuiltinsAll (List.replicate fillers (.nbr (.literal .unit))) := by
      rw [Expr.callsBuiltinsAll_iff]
      intro e he
      rw [List.eq_of_mem_replicate he]
      rfl
    rw [speaksAround, Expr.call, Expr.callsBuiltins, Expr.callsBuiltinsAll_iff]
    rw [Expr.callsBuiltinsAll_iff] at hargs
    intro e he
    simp only [List.mem_cons, List.mem_append, List.not_mem_nil, or_false] at he
    rcases he with rfl | hfiller | rfl
    · rfl
    · exact hargs e hfiller
    · rfl
  · intro init name update h
    have hmem := speaksAround_nodes fillers h
    simp [speaksAround, speaksIf, Expr.call, Expr.nodes, Expr.nodesAll, Value.nodes] at hmem
  · intro hagree
    obtain ⟨spoken, hspoken, hvalue⟩ := speaksAround_round hwraps true
    obtain ⟨other, hother, hvalue'⟩ := speaksAround_round hwraps false
    cases hagree hspoken hother _ rfl hvalue hvalue'

/-- Literals at `nbr`s and distinct codes alone do not make values agree: first and later
values of a `rep` share their paths, a called lambda counts as a slot and a called built-in
does not, and slot numbers wrap around. -/
theorem nbr_values_disagree :
    (hearsTwice.Alignable ∧ ¬hearsTwice.NbrValuesAgree) ∧
    (callsEither.LiteralNbrs ∧ callsEither.CodesDistinct ∧ callsEither.SlotsFit ∧
      callsEither.PlainInits ∧ ¬callsEither.NbrValuesAgree) ∧
    ∃ fillers, (speaksAround fillers).LiteralNbrs ∧ (speaksAround fillers).CodesDistinct ∧
      (speaksAround fillers).callsBuiltins ∧ (speaksAround fillers).PlainInits ∧
      ¬(speaksAround fillers).NbrValuesAgree :=
  ⟨hearsTwice_disagrees, callsEither_disagrees, UInt32.size - 1, speaksAround_disagrees rfl⟩

end FieldCalculus
