import FieldCalculus.Proofs.Records

/-!
An export is a tree whose siblings are unique. As long as a level has no more than `2 ^ 32` slots,
each slot of it has an index of its own, so that no path is recorded twice and two paths can only
part at slots of different indices: never at the two sides of one branch, for instance.
-/

namespace FieldCalculus

/-! ## Paths that part by an index -/

/-- Where the two paths part, the slots have different indices. -/
def Path.PartByIndex (a b : Path) : Prop :=
  ∀ base s t rest rest', a = base ++ s :: rest → b = base ++ t :: rest' →
    s.index = t.index → s = t

namespace Path.PartByIndex

theorem symm {a b : Path} (h : a.PartByIndex b) : b.PartByIndex a :=
  fun base s t rest rest' hb ha hindex => (h base t s rest' rest ha hb hindex.symm).symm

/-- A path does not part from one that goes on from it. -/
theorem of_extends {a b : Path} (h : a <+: b) : a.PartByIndex b := by
  obtain ⟨more, rfl⟩ := h
  rintro base s t rest rest' rfl hb -
  rw [List.append_assoc, List.append_cancel_left_eq] at hb
  exact (List.cons.inj hb).1

/-- Paths that part by an index do nowhere else. -/
theorem of_index_ne {path : Path} {s t : Slot} {rest rest' : Path} (hindex : s.index ≠ t.index) :
    Path.PartByIndex (path ++ s :: rest) (path ++ t :: rest') := by
  intro base s' t' more more' ha hb hsame
  rcases List.append_eq_append_iff.mp ha with ⟨between, rfl, hs⟩ | ⟨between, rfl, hs⟩
  · rw [List.append_assoc, List.append_cancel_left_eq] at hb
    cases between with
    | nil =>
        cases hs
        cases hb
        exact absurd hsame hindex
    | cons slot between =>
        have hfirst : s = slot := (List.cons.inj hs).1
        have hsecond : t = slot := (List.cons.inj hb).1
        exact absurd (by rw [hfirst, hsecond]) hindex
  · rw [List.append_assoc, List.append_cancel_left_eq] at hb
    cases between with
    | nil =>
        cases hs
        cases hb
        exact absurd hsame hindex
    | cons slot between =>
        have hfirst : s' = slot := (List.cons.inj hs).1
        have hsecond : t' = slot := (List.cons.inj hb).1.symm
        rw [hfirst, hsecond]

end Path.PartByIndex

/-! ## What is recorded at one level -/

/-- The entries that were recorded below a path while the slots from `start` up to `stop` were
opened there. -/
structure Branching (path : Path) (start stop : Nat) (puts : List (Path × Value)) : Prop where
  opened : ∀ put ∈ puts, ∃ count slot rest, start ≤ count ∧ count < stop ∧
    slot.index = UInt32.ofNat count ∧ put.1 = path ++ slot :: rest
  distinct : (puts.map Prod.fst).Nodup
  part : ∀ a ∈ puts, ∀ b ∈ puts, Path.PartByIndex a.1 b.1

namespace Branching

variable {path : Path} {start middle stop : Nat} {puts first second : List (Path × Value)}

theorem nil : Branching path start stop [] := by
  refine ⟨?_, List.nodup_nil, ?_⟩
  · intro put hput
    cases hput
  · intro a ha
    cases ha

/-- Slots of one level that were opened one after the other have different indices. -/
theorem index_ne (hstop : stop ≤ UInt32.size) {a b : Nat} (ha : a < middle) (hb : middle ≤ b)
    (hbound : b < stop) : UInt32.ofNat a ≠ UInt32.ofNat b := by
  intro heq
  have hfits : ∀ count < stop, count < UInt32.size :=
    fun count hcount => Nat.lt_of_lt_of_le hcount hstop
  have hcounts := congrArg UInt32.toNat heq
  rw [UInt32.toNat_ofNat_of_lt' (hfits a (by omega)),
    UInt32.toNat_ofNat_of_lt' (hfits b hbound)] at hcounts
  omega

/-- What is recorded later at a level lies in slots of its own. -/
theorem append (hstop : stop ≤ UInt32.size) (hle : start ≤ middle) (hle' : middle ≤ stop)
    (hfirst : Branching path start middle first) (hsecond : Branching path middle stop second) :
    Branching path start stop (first ++ second) := by
  -- counters that differ do so as words too, as long as none of them has come around
  have hapart : ∀ a ∈ first, ∀ b ∈ second, Path.PartByIndex a.1 b.1 ∧ a.1 ≠ b.1 := by
    intro a ha b hb
    obtain ⟨count, slot, rest, -, hcount, hslot, hpath⟩ := hfirst.opened a ha
    obtain ⟨count', slot', rest', hcount', hbound, hslot', hpath'⟩ := hsecond.opened b hb
    have hne : slot.index ≠ slot'.index := by
      rw [hslot, hslot']
      exact index_ne hstop hcount hcount' hbound
    rw [hpath, hpath']
    refine ⟨.of_index_ne hne, ?_⟩
    intro hsame
    rw [List.append_cancel_left_eq, List.cons.injEq] at hsame
    exact hne (congrArg Slot.index hsame.1)
  refine ⟨?_, ?_, ?_⟩
  · intro put hput
    rcases List.mem_append.mp hput with hput | hput
    · obtain ⟨count, slot, rest, hlow, hhigh, hrest⟩ := hfirst.opened put hput
      exact ⟨count, slot, rest, hlow, Nat.lt_of_lt_of_le hhigh hle', hrest⟩
    · obtain ⟨count, slot, rest, hlow, hrest⟩ := hsecond.opened put hput
      exact ⟨count, slot, rest, Nat.le_trans hle hlow, hrest⟩
  · rw [List.map_append, List.nodup_append]
    refine ⟨hfirst.distinct, hsecond.distinct, ?_⟩
    intro p hp q hq
    obtain ⟨a, ha, rfl⟩ := List.mem_map.mp hp
    obtain ⟨b, hb, rfl⟩ := List.mem_map.mp hq
    exact (hapart a ha b hb).2
  · intro a ha b hb
    rcases List.mem_append.mp ha with ha | ha <;> rcases List.mem_append.mp hb with hb | hb
    · exact hfirst.part a ha b hb
    · exact (hapart a ha b hb).1
    · exact (hapart b hb a ha).1.symm
    · exact hsecond.part a ha b hb

/-- What lies below a slot, seen from the level of the slot. -/
theorem enter {slot : Slot} {count : Nat} (hindex : slot.index = UInt32.ofNat start)
    (h : Branching (Path.push path slot) 0 count puts) : Branching path start (start + 1) puts := by
  refine ⟨?_, h.distinct, h.part⟩
  intro put hput
  obtain ⟨_, inner, rest, -, -, -, hpath⟩ := h.opened put hput
  refine ⟨start, slot, inner :: rest, Nat.le_refl _, Nat.lt_succ_self _, hindex, ?_⟩
  rw [hpath, Path.push, List.append_assoc]
  rfl

/-- A slot is recorded after what lies below it. -/
theorem close {slot : Slot} {count : Nat} (hindex : slot.index = UInt32.ofNat start)
    (h : Branching (Path.push path slot) 0 count puts) (value : Value) :
    Branching path start (start + 1) (puts ++ [(Path.push path slot, value)]) := by
  have habove : ∀ put ∈ puts, Path.push path slot <+: put.1 ∧ Path.push path slot ≠ put.1 := by
    intro put hput
    obtain ⟨_, inner, rest, -, -, -, hpath⟩ := h.opened put hput
    rw [hpath]
    exact ⟨List.prefix_append _ _, by simp⟩
  refine ⟨?_, ?_, ?_⟩
  · intro put hput
    rcases List.mem_append.mp hput with hput | hput
    · exact (h.enter hindex).opened put hput
    · rw [List.mem_singleton.mp hput]
      exact ⟨start, slot, [], Nat.le_refl _, Nat.lt_succ_self _, hindex, rfl⟩
  · rw [List.map_append, List.nodup_append]
    refine ⟨h.distinct, List.nodup_singleton _, ?_⟩
    intro p hp q hq
    obtain ⟨put, hput, rfl⟩ := List.mem_map.mp hp
    rw [List.mem_singleton.mp hq]
    exact (habove put hput).2.symm
  · intro a ha b hb
    rcases List.mem_append.mp ha with ha | ha <;> rcases List.mem_append.mp hb with hb | hb
    · exact h.part a ha b hb
    · rw [List.mem_singleton.mp hb]
      exact (Path.PartByIndex.of_extends (habove a ha).1).symm
    · rw [List.mem_singleton.mp ha]
      exact .of_extends (habove b hb).1
    · rw [List.mem_singleton.mp ha, List.mem_singleton.mp hb]
      exact .of_extends List.prefix_rfl

end Branching

namespace Eval

/-- Up to `2 ^ 32` slots of a level its entries branch by the indices of the slots. -/
theorem law_branching : Law (· ≤ UInt32.size) fun path start stop puts =>
    stop ≤ UInt32.size → Branching path start stop puts where
  nothing _ _ := .nil
  append hle hle' hfirst hsecond hstop :=
    .append hstop hle hle' (hfirst (Nat.le_trans hle' hstop)) (hsecond hstop)
  entry hindex _ hfits h _ := (h hfits).close hindex _
  call hfits h _ := (h hfits).enter rfl

/-! ## Levels with few slots -/

/-- The value of a program as `eval` gives it, unless an evaluation leaves `limit` slots or more
open at its level: then everything stops. -/
def evalWithin (limit depth : Nat) (expr : Expr) (ctx : Context) : Eval Value :=
  match depth with
  | 0 => fail ctx .depthExceeded
  | depth + 1 => fun slots =>
    match step (evalWithin limit depth) expr ctx slots with
    | .ok y => if y.slots < limit then .ok y else .error (.failed ⟨.depthExceeded, ctx.path⟩)
    | .error interrupt => .error interrupt

theorem evalWithin_eq_ok {limit depth : Nat} {expr : Expr} {ctx : Context} {slots : Nat}
    {y : Yield Value} (h : evalWithin limit depth expr ctx slots = .ok y) :
    ∃ shallower, depth = shallower + 1 ∧ step (evalWithin limit shallower) expr ctx slots = .ok y ∧
      y.slots < limit := by
  cases depth with
  | zero => cases h
  | succ depth =>
      refine ⟨depth, rfl, ?_⟩
      simp only [evalWithin] at h
      split at h
      · rename_i w hw
        split at h
        · rename_i hslots
          cases h
          exact ⟨hw, hslots⟩
        · cases h
      · cases h

/-- Up to `2 ^ 32` slots per level make a branching of all that is recorded. -/
theorem records_evalWithin {limit : Nat} (hlimit : limit ≤ UInt32.size + 1) (depth : Nat)
    (expr : Expr) (ctx : Context) :
    Records (fun path start stop puts => stop ≤ UInt32.size → Branching path start stop puts) ctx
      (evalWithin limit depth expr ctx) := by
  induction depth generalizing expr ctx with
  | zero => exact records_fail
  | succ depth ih =>
      intro start y hy
      obtain ⟨_, hdepth, hstep, -⟩ := evalWithin_eq_ok hy
      cases hdepth
      refine records_step law_branching ?_ ih expr ctx start y hstep
      intro _ _ _ w hw
      obtain ⟨_, -, -, hslots⟩ := evalWithin_eq_ok hw
      exact Nat.le_of_lt_succ (Nat.lt_of_lt_of_le hslots hlimit)

/-- Nowhere in the evaluation of the program does a level have `limit` slots or more, so that
stopping there makes no difference. -/
def LevelsBelow (limit : Nat) (program : Expr) (ctx : Context) : Prop :=
  evalWithin limit depthLimit program ctx 0 = eval depthLimit program ctx 0

/-- What a program records is a branching if no level has more than `2 ^ 32` slots. -/
theorem LevelsBelow.branching {limit : Nat} (hlimit : limit ≤ UInt32.size + 1) {program : Expr}
    {ctx : Context} (hlevels : LevelsBelow limit program ctx) {y : Yield Value}
    (h : eval depthLimit program ctx 0 = .ok y) : Branching ctx.path 0 y.slots y.puts := by
  rw [← hlevels] at h
  obtain ⟨_, -, -, hslots⟩ := evalWithin_eq_ok h
  obtain ⟨-, -, hrecorded⟩ := records_evalWithin hlimit depthLimit program ctx 0 y h
  exact hrecorded (Nat.le_of_lt_succ (Nat.lt_of_lt_of_le hslots hlimit))

end Eval

/-! ## Exports -/

/-- What an evaluation exports is recorded path by path, no path twice, the root included. Two
entries part only at slots of different indices, so there are never entries under both sides of
a branch. -/
theorem export_siblings_unique (program : Expr) (ctx : Context) (result : Evaluation)
    (hlevels : Eval.LevelsBelow UInt32.size program ctx) (h : evaluateIn program ctx = .ok result) :
    ∃ slots puts, Eval.eval depthLimit program ctx 0 = .ok ⟨result.value, slots, puts⟩ ∧
      result.exported = .ofPuts puts result.value ∧
      (Path.root :: puts.map Prod.fst).Nodup ∧
      (∀ a b, result.exported.contains a → result.exported.contains b → a.PartByIndex b) ∧
      ∀ base index rest rest', result.exported.contains (base ++ .branch index true :: rest) →
        ¬result.exported.contains (base ++ .branch index false :: rest') := by
  unfold evaluateIn at h
  cases heval : Eval.eval depthLimit program ctx 0 with
  | error interrupt =>
      rw [heval] at h
      cases interrupt <;> cases h
  | ok y =>
      rw [heval] at h
      cases h
      have hbranching := hlevels.branching (Nat.le_succ _) heval
      have hpart : ∀ a b, (Export.ofPuts y.puts y.value).contains a →
          (Export.ofPuts y.puts y.value).contains b → a.PartByIndex b := by
        intro a b ha hb
        rcases Export.contains_ofPuts.mp ha with rfl | ha
        · exact .of_extends List.nil_prefix
        rcases Export.contains_ofPuts.mp hb with rfl | hb
        · exact (Path.PartByIndex.of_extends List.nil_prefix).symm
        obtain ⟨put, hput, rfl⟩ := List.mem_map.mp ha
        obtain ⟨put', hput', rfl⟩ := List.mem_map.mp hb
        exact hbranching.part put hput put' hput'
      refine ⟨y.slots, y.puts, rfl, rfl, List.nodup_cons.mpr ⟨?_, hbranching.distinct⟩,
        hpart, ?_⟩
      · intro hroot
        obtain ⟨put, hput, hpath⟩ := List.mem_map.mp hroot
        obtain ⟨_, slot, rest, -, -, -, hslot⟩ := hbranching.opened put hput
        rw [hslot] at hpath
        exact List.append_ne_nil_of_right_ne_nil _ (List.cons_ne_nil _ _) hpath
      · intro base index rest rest' hthen helse
        cases hpart _ _ hthen helse base _ _ rest rest' rfl rfl rfl

/-- A branch, a state and a fold on one level. The fold is given a function that tells neighbors
something itself. -/
def threeSlots : Expr :=
  .call .tuple
    [.branch (.literal (.bool true)) (.nbr .selfId) (.literal .unit),
      .rep (.literal .unit) "x" (.var "x"),
      .fold (.literal .unit) (.lambda ⟨"later"⟩ ["a", "b"] (.nbr (.var "b"))) (.nbr .selfId)]

/-- A device without neighbors in its first round. -/
def firstRound : RoundInputs := ⟨⟨"a"⟩, SensorTable.empty.sensors, .empty, .empty⟩

/-- What the device records, in order. -/
def threeSlotsEntries : List (Path × Value) :=
  [([.branch 0 true, .nbr 0], .text "a"), ([.branch 0 true], .text "a"), ([.rep 1], .unit),
    ([.foldHood 2, .nbr 0], .text "a"), ([.foldHood 2], .text "a")]

/-- The function is applied inside of the fold, where a neighbor is told of as well, and leaves no
second entry there. -/
theorem threeSlots_siblings_unique :
    Eval.LevelsBelow UInt32.size threeSlots (.root firstRound) ∧
      evaluateIn threeSlots (.root firstRound) =
        .ok ⟨.tuple [.text "a", .unit, .text "a"],
          .ofPuts threeSlotsEntries (.tuple [.text "a", .unit, .text "a"])⟩ ∧
      (Path.root :: threeSlotsEntries.map Prod.fst).Nodup := by
  have hlevels : Eval.LevelsBelow UInt32.size threeSlots (.root firstRound) := by cbv
  have heval : Eval.eval depthLimit threeSlots (.root firstRound) 0 =
      .ok ⟨.tuple [.text "a", .unit, .text "a"], 3, threeSlotsEntries⟩ := by cbv
  have hresult : evaluateIn threeSlots (.root firstRound) =
      .ok ⟨.tuple [.text "a", .unit, .text "a"],
        .ofPuts threeSlotsEntries (.tuple [.text "a", .unit, .text "a"])⟩ := by
    rw [evaluateIn, heval]
  obtain ⟨slots, puts, hrun, -, hdistinct, -⟩ :=
    export_siblings_unique threeSlots (.root firstRound) _ hlevels hresult
  rw [heval] at hrun
  cases hrun
  exact ⟨hlevels, hresult, hdistinct⟩

end FieldCalculus
