import FieldCalculus.Proofs.Records

/-!
Exports are complete towards the root. Every slot that encloses an entry has one of its own,
unless it is a call, so a neighbor that takes part at some place of a program takes part at every
fold, branch and state around it.
-/

namespace FieldCalculus

theorem Path.endsIn_cons {slot : Slot} {rest : Path} (hrest : rest ≠ []) (kind : SlotKind) :
    Path.endsIn (slot :: rest) kind = Path.endsIn rest kind := by
  obtain ⟨next, rest, rfl⟩ := List.exists_cons_of_ne_nil hrest
  rfl

theorem Path.endsIn_singleton (slot : Slot) (kind : SlotKind) :
    Path.endsIn [slot] kind = decide (slot.kind = kind) := rfl

/-- Below `base`, the path ends in a slot that is recorded, and `held` tells of a value at all the
recorded slots around it. -/
structure Path.Enclosed (held : Path → Prop) (base path : Path) : Prop where
  nonempty : path ≠ []
  recorded : ¬Path.endsIn path .funCall
  around : ∀ outer, outer <+: path → outer ≠ path → outer ≠ [] → ¬Path.endsIn outer .funCall →
    held (base ++ outer)

namespace Path.Enclosed

variable {held held' : Path → Prop} {base rest : Path}

theorem mono (h : Path.Enclosed held base rest) (hheld : ∀ path, held path → held' path) :
    Path.Enclosed held' base rest :=
  ⟨h.nonempty, h.recorded, fun outer hprefix hne hnil hends =>
    hheld _ (h.around outer hprefix hne hnil hends)⟩

/-- The same entry, seen from outside of the slot that it lies in. -/
theorem cons {slot : Slot} (h : Path.Enclosed held (Path.push base slot) rest)
    (hslot : slot.kind ≠ .funCall → held (Path.push base slot)) :
    Path.Enclosed held base (slot :: rest) := by
  refine ⟨List.cons_ne_nil _ _, ?_, ?_⟩
  · rw [Path.endsIn_cons h.nonempty]
    exact h.recorded
  · intro outer hprefix hne hnil hends
    obtain ⟨first, inner, rfl⟩ := List.exists_cons_of_ne_nil hnil
    obtain ⟨rfl, hinner⟩ := List.cons_prefix_cons.mp hprefix
    cases inner with
    | nil =>
        rw [Path.endsIn_singleton, decide_eq_true_eq] at hends
        exact hslot hends
    | cons next inner =>
        have hbelow := h.around (next :: inner) hinner (fun heq => hne (by rw [heq]))
          (List.cons_ne_nil _ _) (by rwa [Path.endsIn_cons (List.cons_ne_nil _ _)] at hends)
        rwa [Path.push, List.append_assoc] at hbelow

/-- Nothing lies around a slot of the base itself. -/
theorem singleton {slot : Slot} (hkind : slot.kind ≠ .funCall) :
    Path.Enclosed held base [slot] := by
  refine ⟨List.cons_ne_nil _ _, ?_, ?_⟩
  · rw [Path.endsIn_singleton, decide_eq_true_eq]
    exact hkind
  · intro outer hprefix hne hnil _
    obtain ⟨first, inner, rfl⟩ := List.exists_cons_of_ne_nil hnil
    obtain ⟨rfl, hinner⟩ := List.cons_prefix_cons.mp hprefix
    exact absurd (by rw [List.prefix_nil.mp hinner]) hne

end Path.Enclosed

/-- Around each of the entries below the path the others are entries too. -/
def Complete (path : Path) (puts : List (Path × Value)) : Prop :=
  ∀ put ∈ puts, ∃ rest, put.1 = path ++ rest ∧
    Path.Enclosed (· ∈ puts.map Prod.fst) path rest

namespace Complete

variable {path : Path} {puts first second : List (Path × Value)}

theorem append (hfirst : Complete path first) (hsecond : Complete path second) :
    Complete path (first ++ second) := by
  intro put hput
  rw [List.map_append]
  rcases List.mem_append.mp hput with hput | hput
  · obtain ⟨rest, hrest, henclosed⟩ := hfirst put hput
    exact ⟨rest, hrest, henclosed.mono fun _ => List.mem_append_left _⟩
  · obtain ⟨rest, hrest, henclosed⟩ := hsecond put hput
    exact ⟨rest, hrest, henclosed.mono fun _ => List.mem_append_right _⟩

/-- A slot that is recorded after what lies below it encloses that. -/
theorem close {slot : Slot} (h : Complete (Path.push path slot) puts)
    (hkind : slot.kind ≠ .funCall) (value : Value) :
    Complete path (puts ++ [(Path.push path slot, value)]) := by
  intro put hput
  rcases List.mem_append.mp hput with hput | hput
  · obtain ⟨rest, hrest, henclosed⟩ := h put hput
    refine ⟨slot :: rest, ?_, (henclosed.mono ?_).cons fun _ => ?_⟩
    · rw [hrest, Path.push, List.append_assoc]
      rfl
    · intro other hother
      rw [List.map_append]
      exact List.mem_append_left _ hother
    · simp
  · rw [List.mem_singleton.mp hput]
    exact ⟨[slot], rfl, .singleton hkind⟩

/-- A call encloses what lies below it without being recorded. -/
theorem call {index : UInt32} {code : CodeId}
    (h : Complete (Path.push path (.funCall index code)) puts) : Complete path puts := by
  intro put hput
  obtain ⟨rest, hrest, henclosed⟩ := h put hput
  refine ⟨.funCall index code :: rest, ?_, henclosed.cons fun hkind => absurd rfl hkind⟩
  rw [hrest, Path.push, List.append_assoc]
  rfl

end Complete

namespace Eval

theorem law_complete : Law (fun _ => True) fun path _ _ puts => Complete path puts where
  nothing _ put hput := by cases hput
  append _ _ hfirst hsecond := hfirst.append hsecond
  entry _ hkind _ h := h.close hkind _
  call _ h := h.call

theorem records_complete (depth : Nat) (expr : Expr) (ctx : Context) :
    Records (fun path _ _ puts => Complete path puts) ctx (eval depth expr ctx) := by
  induction depth generalizing expr ctx with
  | zero => exact records_fail
  | succ depth ih => exact records_step law_complete (fun _ _ _ _ _ => trivial) ih expr ctx

end Eval

/-! ## Exports -/

/-- Apart from the root, an evaluation at a path exports only what lies strictly below the path
and does not end in a call, and with an entry it exports one at every slot around it that is no
call. So whoever finds the device at some place below finds it at every such slot around that
place. -/
theorem export_complete (program : Expr) (ctx : Context) (result : Evaluation)
    (h : evaluateIn program ctx = .ok result) :
    (∀ path ≠ Path.root, result.exported.contains path → ∃ rest, path = ctx.path ++ rest ∧
      Path.Enclosed (fun other => result.exported.contains other) ctx.path rest) ∧
    ∀ (other : Context) (id : DeviceId), (id, result.exported) ∈ other.alignedNeighbors →
      ∀ outer, outer ≠ [] → ¬Path.endsIn outer .funCall → ctx.path ++ outer <+: other.path →
        (id, result.exported) ∈ { other with path := ctx.path ++ outer }.alignedNeighbors := by
  have hentries : ∀ path ≠ Path.root, result.exported.contains path →
      ∃ rest, path = ctx.path ++ rest ∧
        Path.Enclosed (fun other => result.exported.contains other) ctx.path rest := by
    intro path hpath hcontains
    unfold evaluateIn at h
    cases heval : Eval.eval depthLimit program ctx 0 with
    | error interrupt =>
        rw [heval] at h
        cases interrupt <;> cases h
    | ok y =>
        rw [heval] at h
        cases h
        obtain ⟨-, -, hcomplete⟩ := Eval.records_complete depthLimit program ctx 0 y heval
        have hrecorded := (Export.contains_ofPuts.mp hcontains).resolve_left hpath
        obtain ⟨put, hput, rfl⟩ := List.mem_map.mp hrecorded
        obtain ⟨rest, hrest, henclosed⟩ := hcomplete put hput
        exact ⟨rest, hrest, henclosed.mono fun other hother =>
          Export.contains_ofPuts.mpr (Or.inr hother)⟩
  refine ⟨hentries, ?_⟩
  intro other id haligned outer hnil hends hprefix
  obtain ⟨hmem, hkeep⟩ := List.mem_filter.mp haligned
  obtain ⟨hid, hcontains⟩ := Bool.and_eq_true_iff.mp hkeep
  refine List.mem_filter.mpr ⟨hmem, Bool.and_eq_true_iff.mpr ⟨hid, ?_⟩⟩
  change result.exported.contains (ctx.path ++ outer) = true
  -- the outer place is the one where the neighbor is found, or a slot around it
  by_cases hsame : ctx.path ++ outer = other.path
  · rw [hsame]
    exact hcontains
  · have hroot : other.path ≠ Path.root := by
      intro hroot
      rw [hroot] at hprefix
      exact hnil (List.append_eq_nil_iff.mp (List.prefix_nil.mp hprefix)).2
    obtain ⟨rest, hrest, henclosed⟩ := hentries other.path hroot hcontains
    rw [hrest, List.prefix_append_right_inj] at hprefix
    refine henclosed.around outer hprefix ?_ hnil hends
    rintro rfl
    exact hsame hrest.symm

/-- A function that folds on one side of a branch, called. -/
def calledFold : Expr :=
  .apply (.lambda ⟨"told"⟩ [] (.branch (.literal (.bool true))
    (.fold (.literal .unit) (.literal (.builtin .tuple)) (.nbr .selfId)) (.literal .unit))) []

/-- What a device without neighbors exports. -/
def calledFoldExport : Export :=
  .ofPuts
    [([.funCall 0 ⟨"told"⟩, .branch 0 true, .foldHood 0, .nbr 0], .text "a"),
      ([.funCall 0 ⟨"told"⟩, .branch 0 true, .foldHood 0], .tuple [.unit, .text "a"]),
      ([.funCall 0 ⟨"told"⟩, .branch 0 true], .tuple [.unit, .text "a"])]
    (.tuple [.unit, .text "a"])

/-- A neighbor of the device at the fold. -/
def besideCalledFold : Context :=
  { Context.root ⟨⟨"b"⟩, SensorTable.empty.sensors, .empty, Dict.ofList [(⟨"a"⟩, calledFoldExport)]⟩
    with path := [.funCall 0 ⟨"told"⟩, .branch 0 true, .foldHood 0] }

/-- The neighbor finds the device at the fold, and so in the branch around it. -/
theorem calledFold_complete :
    evaluateIn calledFold (.root ⟨⟨"a"⟩, SensorTable.empty.sensors, .empty, .empty⟩) =
        .ok ⟨.tuple [.unit, .text "a"], calledFoldExport⟩ ∧
      (⟨"a"⟩, calledFoldExport) ∈ besideCalledFold.alignedNeighbors ∧
      (⟨"a"⟩, calledFoldExport) ∈
        { besideCalledFold with path := [.funCall 0 ⟨"told"⟩, .branch 0 true] }.alignedNeighbors := by
  have hevaluated :
      evaluateIn calledFold (.root ⟨⟨"a"⟩, SensorTable.empty.sensors, .empty, .empty⟩) =
        .ok ⟨.tuple [.unit, .text "a"], calledFoldExport⟩ := by cbv
  have haligned : (⟨"a"⟩, calledFoldExport) ∈ besideCalledFold.alignedNeighbors :=
    List.mem_filter.mpr ⟨List.mem_cons_self, by decide⟩
  refine ⟨hevaluated, haligned, ?_⟩
  exact (export_complete calledFold _ _ hevaluated).2 besideCalledFold ⟨"a"⟩ haligned
    [.funCall 0 ⟨"told"⟩, .branch 0 true] (List.cons_ne_nil _ _) (by decide) (by decide)

end FieldCalculus
