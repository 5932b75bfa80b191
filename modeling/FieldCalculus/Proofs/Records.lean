import FieldCalculus.Proofs.Eval
import FieldCalculus.Proofs.Export
import Mathlib.Data.List.Nodup

/-!
The shape of what an evaluation records. Entries arise from the inside out: a slot is entered,
what lies below it is recorded, and then the slot itself, unless it is a call. Seen from its
end an export is therefore a tree: no path is recorded twice, paths part only by the indices of
their slots, and above each entry there is one at every slot that is not a call.
-/

namespace FieldCalculus

namespace Eval

variable {α β : Type}

/-- The computation opens no slot and records nothing. -/
def Mute (x : Eval α) : Prop := ∀ slots y, x slots = .ok y → y.slots = slots ∧ y.puts = []

namespace Mute

theorem pure (a : α) : (Pure.pure a : Eval α).Mute := by
  rintro slots _ ⟨⟩
  exact ⟨rfl, rfl⟩

theorem absent (path : Path) : (absent path : Eval α).Mute := by
  intro slots y hy
  cases hy

theorem bind {x : Eval α} {f : α → Eval β} (hx : x.Mute) (hf : ∀ a, (f a).Mute) :
    (x >>= f).Mute := by
  intro slots z hz
  obtain ⟨y, w, hy, hw, rfl⟩ := bind_eq_ok hz
  obtain ⟨hslots, hputs⟩ := hx slots y hy
  obtain ⟨hslots', hputs'⟩ := hf y.value y.slots w hw
  exact ⟨hslots'.trans hslots, by rw [hputs, hputs', List.append_nil]⟩

theorem present? {x : Eval α} (hx : x.Mute) : (present? x).Mute := by
  intro slots y hy
  rcases present?_eq_ok hy with rfl | ⟨w, hw, rfl⟩
  · exact ⟨rfl, rfl⟩
  · exact hx slots w hw

end Mute

/-- The computation opens no slot and records one value at the position, if values are recorded
there. -/
def Seals (ctx : Context) (x : Eval α) : Prop := ∀ slots y, x slots = .ok y →
  y.slots = slots ∧ ∃ value, y.puts = if ctx.recording then [(ctx.path, value)] else []

theorem seals_record_return (ctx : Context) (value : Value) :
    Seals ctx (do record ctx value; return value : Eval Value) := by
  intro slots y hy
  rw [bind_run (record_run ctx value slots), pure_run] at hy
  cases hy
  exact ⟨rfl, value, List.append_nil _⟩

theorem Mute.bind_seals {ctx : Context} {x : Eval α} {f : α → Eval β} (hx : x.Mute)
    (hf : ∀ a, Seals ctx (f a)) : Seals ctx (x >>= f) := by
  intro slots z hz
  obtain ⟨y, w, hy, hw, rfl⟩ := bind_eq_ok hz
  obtain ⟨hslots, hputs⟩ := hx slots y hy
  obtain ⟨hslots', value, hputs'⟩ := hf y.value y.slots w hw
  exact ⟨hslots'.trans hslots, value, by rw [hputs, hputs', List.nil_append]⟩

/-! ## Laws that entries obey

A law speaks of the entries recorded at a path while the slots from `start` up to `stop` were
opened there. It need only be kept when a slot is entered from a level whose count of slots
`fits`. -/

/-- What an evaluation records obeys a law that holds of nothing and is kept when levels go on
and when slots are entered. -/
structure Law (fits : Nat → Prop) (obeys : Path → Nat → Nat → List (Path × Value) → Prop) :
    Prop where
  nothing : ∀ {path start stop}, start ≤ stop → obeys path start stop []
  append : ∀ {path start middle stop first second}, start ≤ middle → middle ≤ stop →
    obeys path start middle first → obeys path middle stop second →
      obeys path start stop (first ++ second)
  entry : ∀ {path start slot opened puts value}, slot.index = UInt32.ofNat start →
    slot.kind ≠ .funCall → fits opened → obeys (Path.push path slot) 0 opened puts →
      obeys path start (start + 1) (puts ++ [(Path.push path slot, value)])
  call : ∀ {path start code opened puts}, fits opened →
    obeys (Path.push path (.funCall (UInt32.ofNat start) code)) 0 opened puts →
      obeys path start (start + 1) puts

section Obeys

variable {fits : Nat → Prop} {obeys : Path → Nat → Nat → List (Path × Value) → Prop}

/-- The computation records at the position what obeys the law, and nothing where nothing is
recorded. -/
def Records (obeys : Path → Nat → Nat → List (Path × Value) → Prop) (ctx : Context)
    (x : Eval α) : Prop :=
  ∀ start y, x start = .ok y → start ≤ y.slots ∧ (ctx.recording = false → y.puts = []) ∧
    obeys ctx.path start y.slots y.puts

/-- The computation opens no slot of its own level and records at `inner`, which lies one level
deeper. -/
def RecordsInside (fits : Nat → Prop) (obeys : Path → Nat → Nat → List (Path × Value) → Prop)
    (inner : Context) (x : Eval α) : Prop :=
  ∀ slots y, x slots = .ok y → y.slots = slots ∧ (inner.recording = false → y.puts = []) ∧
    ∃ opened, fits opened ∧ obeys inner.path 0 opened y.puts

variable {ctx inner : Context} {x : Eval α}

theorem Mute.records (hlaw : Law fits obeys) (hx : x.Mute) : Records obeys ctx x := by
  intro start y hy
  obtain ⟨hslots, hputs⟩ := hx start y hy
  rw [hslots, hputs]
  exact ⟨Nat.le_refl _, fun _ => rfl, hlaw.nothing (Nat.le_refl _)⟩

theorem records_fail {fault : Fault} : Records obeys ctx (fail ctx fault : Eval α) := by
  intro start y hy
  cases hy

theorem records_located (hlaw : Law fits obeys) (result : Except Fault α) :
    Records obeys ctx (located ctx result) := by
  cases result with
  | ok a => exact (Mute.pure a).records hlaw
  | error fault => exact records_fail

theorem records_nextSlot (hlaw : Law fits obeys) : Records obeys ctx nextSlot := by
  rintro start _ ⟨⟩
  exact ⟨Nat.le_succ _, fun _ => rfl, hlaw.nothing (Nat.le_succ _)⟩

theorem Records.bind (hlaw : Law fits obeys) {f : α → Eval β} (hx : Records obeys ctx x)
    (hf : ∀ a, Records obeys ctx (f a)) : Records obeys ctx (x >>= f) := by
  intro start z hz
  obtain ⟨y, w, hy, hw, rfl⟩ := bind_eq_ok hz
  obtain ⟨hle, hsilent, hobeys⟩ := hx start y hy
  obtain ⟨hle', hsilent', hobeys'⟩ := hf y.value y.slots w hw
  refine ⟨Nat.le_trans hle hle', ?_, hlaw.append hle hle' hobeys hobeys'⟩
  intro hrecording
  rw [hsilent hrecording, hsilent' hrecording, List.append_nil]

/-- One level deeper, what is not recorded leaves no trace. -/
theorem Records.mute_inside (hx : Records obeys inner x) (hrecording : inner.recording = false) :
    (inside x).Mute := by
  intro slots y hy
  obtain ⟨w, hw, rfl⟩ := inside_eq_ok hy
  exact ⟨rfl, (hx 0 w hw).2.1 hrecording⟩

theorem RecordsInside.bind_seals {f : α → Eval Value} (hx : RecordsInside fits obeys inner x)
    (hf : ∀ a, Seals inner (f a)) {slots : Nat} {z : Yield Value} (hz : (x >>= f) slots = .ok z) :
    z.slots = slots ∧ (inner.recording = false → z.puts = []) ∧
      (inner.recording = true → ∃ opened puts value, fits opened ∧
        obeys inner.path 0 opened puts ∧ z.puts = puts ++ [(inner.path, value)]) := by
  obtain ⟨y, w, hy, hw, rfl⟩ := bind_eq_ok hz
  obtain ⟨hslots, hsilent, opened, hfits, hobeys⟩ := hx slots y hy
  obtain ⟨hslots', value, hputs⟩ := hf y.value y.slots w hw
  refine ⟨hslots'.trans hslots, ?_, ?_⟩
  · intro hrecording
    rw [hsilent hrecording, hputs, hrecording]
    rfl
  · intro hrecording
    refine ⟨opened, y.puts, value, hfits, hobeys, ?_⟩
    rw [hputs, hrecording]
    rfl

/-- A slot that is entered and then recorded itself. -/
theorem records_entry (slot : UInt32 → Slot) (hlaw : Law fits obeys)
    (hindex : ∀ index, (slot index).index = index) (hkind : ∀ index, (slot index).kind ≠ .funCall)
    {x : UInt32 → Eval α} {f : UInt32 → α → Eval Value}
    (hx : ∀ index, RecordsInside fits obeys (ctx.nest (slot index)) (x index))
    (hf : ∀ index a, Seals (ctx.nest (slot index)) (f index a)) :
    Records obeys ctx (do let index ← nextSlot; let a ← x index; f index a) := by
  intro start z hz
  rw [bind_run (nextSlot_run start)] at hz
  cases hw : (x (UInt32.ofNat start) >>= f (UInt32.ofNat start)) (start + 1) with
  | error interrupt =>
      rw [hw] at hz
      cases hz
  | ok w =>
      rw [hw] at hz
      cases hz
      obtain ⟨hslots, hsilent, hrecorded⟩ := (hx _).bind_seals (hf _) hw
      dsimp only
      rw [List.nil_append, hslots]
      refine ⟨Nat.le_succ _, hsilent, ?_⟩
      cases hrecording : ctx.recording with
      | false =>
          rw [hsilent hrecording]
          exact hlaw.nothing (Nat.le_succ _)
      | true =>
          obtain ⟨opened, puts, value, hfits, hobeys, hputs⟩ := hrecorded hrecording
          rw [hputs]
          exact hlaw.entry (hindex _) (hkind _) hfits hobeys

end Obeys

/-! ## Evaluation -/

section Node

variable {fits : Nat → Prop} {obeys : Path → Nat → Nat → List (Path × Value) → Prop}
  {recur : Expr → Context → Eval Value} (hlaw : Law fits obeys)
  (hfits : ∀ expr ctx slots y, recur expr ctx slots = .ok y → fits y.slots)
  (hrecur : ∀ expr ctx, Records obeys ctx (recur expr ctx))

include hlaw hfits hrecur

omit hlaw in
/-- What is evaluated one level deeper is recorded there. -/
theorem recordsInside_recur {expr : Expr} {inner ctx : Context} (hpath : ctx.path = inner.path)
    (hrecording : ctx.recording = inner.recording) :
    RecordsInside fits obeys inner (inside (recur expr ctx)) := by
  intro slots y hy
  obtain ⟨w, hw, rfl⟩ := inside_eq_ok hy
  obtain ⟨-, hsilent, hobeys⟩ := hrecur expr ctx 0 w hw
  rw [hpath] at hobeys
  rw [hrecording] at hsilent
  exact ⟨rfl, hsilent, w.slots, hfits expr ctx 0 w hw, hobeys⟩

theorem records_applyTo (function : Value) (args : List Value) (ctx : Context) :
    Records obeys ctx (applyTo recur function args ctx) := by
  cases function with
  | builtin op => exact records_located hlaw _
  | closure code params body env =>
      rw [applyTo_closure]
      split
      · exact records_fail
      · intro start z hz
        obtain ⟨y, w, hy, hw, rfl⟩ := bind_eq_ok hz
        cases hy
        have hinside : RecordsInside fits obeys (ctx.nest (.funCall (UInt32.ofNat start) code))
            (inside (recur body ((ctx.nest (.funCall (UInt32.ofNat start) code)).withEnv
              (Entries.insertAll env (params.zip args))))) :=
          recordsInside_recur hfits hrecur rfl rfl
        obtain ⟨hslots, hsilent, opened, hopened, hobeys⟩ := hinside _ w hw
        dsimp only
        rw [List.nil_append, hslots]
        exact ⟨Nat.le_succ _, hsilent, hlaw.call hopened hobeys⟩
  | _ => exact records_fail

omit hfits in
theorem records_evalAll (ctx : Context) (exprs : List Expr) :
    Records obeys ctx (evalAll recur ctx exprs) := by
  induction exprs with
  | nil => exact (Mute.pure _).records hlaw
  | cons expr rest ih =>
      exact (hrecur expr ctx).bind hlaw fun _ => ih.bind hlaw fun _ => (Mute.pure _).records hlaw

/-- Accumulators are applied without being recorded. -/
theorem mute_combine (combine : Value) (args : List Value) (ctx : Context) :
    (inside (applyTo recur combine args ctx.silent)).Mute :=
  (records_applyTo hlaw hfits hrecur combine args ctx.silent).mute_inside rfl

theorem mute_foldNeighbors (generator : Expr) (combine : Value) (ctx : Context)
    (neighbors : List (DeviceId × Export)) (acc : Value) :
    (foldNeighbors recur generator combine ctx neighbors acc).Mute := by
  induction neighbors generalizing acc with
  | nil => exact .pure acc
  | cons neighbor rest ih =>
      obtain ⟨id, exported⟩ := neighbor
      rw [foldNeighbors_cons]
      -- with a neighbor in focus nothing is recorded
      have hasked := ((hrecur generator (ctx.toSelf.focusedOn id exported)).mute_inside rfl).present?
      refine hasked.bind fun contribution => ?_
      cases contribution with
      | none => exact ih acc
      | some value => exact (mute_combine hlaw hfits hrecur combine _ ctx).bind fun acc => ih acc

theorem records_fold (initial combine : Value) (generator : Expr) (includeSelf : Bool)
    (ctx : Context) :
    Records obeys ctx (do
      let index ← nextSlot
      fold recur initial combine generator includeSelf (ctx.nest (.foldHood index))) := by
  simp only [fold_eq]
  refine records_entry .foldHood hlaw (fun _ => rfl) (fun _ h => by cases h)
    (fun index => recordsInside_recur hfits hrecur rfl rfl) fun index own => ?_
  have hstart : (foldStart recur (ctx.nest (.foldHood index)) combine initial own
      includeSelf).Mute := by
    rw [foldStart]
    split
    · exact mute_combine hlaw hfits hrecur combine _ _
    · exact .pure initial
  refine hstart.bind_seals fun start => ?_
  refine (mute_foldNeighbors hlaw hfits hrecur generator combine _ _ start).bind_seals fun _ => ?_
  exact seals_record_return _ _

theorem records_step (expr : Expr) (ctx : Context) : Records obeys ctx (step recur expr ctx) := by
  cases expr with
  | literal v => exact (Mute.pure v).records hlaw
  | var name => exact records_located hlaw _
  | sense name => exact records_located hlaw _
  | neighborSense name => exact records_located hlaw _
  | selfId => exact (Mute.pure _).records hlaw
  | lambda code params body => exact (Mute.pure _).records hlaw
  | apply function args =>
      rw [step_apply]
      refine (hrecur function ctx).bind hlaw fun f => ?_
      refine (records_evalAll hlaw hrecur ctx args).bind hlaw fun vs => ?_
      exact records_applyTo hlaw hfits hrecur f vs ctx
  | letIn name value body =>
      rw [step_letIn]
      exact (hrecur value ctx).bind hlaw fun v => hrecur body (ctx.bind name v)
  | branch condition thenSide elseSide =>
      rw [step_branch]
      refine (hrecur condition ctx).bind hlaw fun c => ?_
      refine (records_located hlaw _).bind hlaw fun taken => ?_
      exact records_entry (.branch · taken) hlaw (fun _ => rfl)
        (fun _ h => by cases h) (fun _ => recordsInside_recur hfits hrecur rfl rfl)
        fun _ _ => seals_record_return _ _
  | rep init var update =>
      rw [step_rep]
      refine records_entry .rep hlaw (fun _ => rfl) (fun _ h => by cases h) (fun index => ?_)
        fun _ _ => seals_record_return _ _
      rw [repAt]
      split
      · exact recordsInside_recur hfits hrecur rfl rfl
      · exact recordsInside_recur hfits hrecur rfl rfl
  | nbr body =>
      rw [step_nbr]
      cases ctx.focus with
      | neighbor id exported =>
          refine (records_nextSlot hlaw).bind hlaw fun index => Mute.records hlaw ?_
          rw [nbrAt]
          split
          · exact .pure _
          · exact .absent _
      | self =>
          exact records_entry .nbr hlaw (fun _ => rfl) (fun _ h => by cases h)
            (fun _ => recordsInside_recur hfits hrecur rfl rfl)
            fun _ _ => seals_record_return _ _
  | neighborFold default accumulator generator includeSelf =>
      rw [step_neighborFold]
      refine (hrecur default ctx).bind hlaw fun initial => ?_
      refine (hrecur accumulator ctx).bind hlaw fun combine => ?_
      exact records_fold hlaw hfits hrecur initial combine generator includeSelf ctx

end Node

end Eval

end FieldCalculus
