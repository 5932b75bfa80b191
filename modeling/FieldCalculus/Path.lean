/-!
Structural paths, which locate a value inside one evaluation. A path lists the
slots entered from the root of the program; a slot carries the construct that
opened it, its index among the slots opened at the same level, and the side or
code taken where there is a choice. Devices that follow the same branches build
the same paths, and that is how a device finds its neighbors' values.
-/

namespace FieldCalculus

/-- Identity of a lambda's code, derived from its content. -/
structure CodeId where
  text : String
deriving DecidableEq, Inhabited

instance : Ord CodeId := ⟨compareOn CodeId.text⟩

/-- The constructs that open slots. -/
inductive SlotKind where
  | nbr | rep | foldHood | branch | funCall
deriving DecidableEq

/-- One step of a path. -/
inductive Slot where
  | nbr (index : UInt32)
  | rep (index : UInt32)
  | foldHood (index : UInt32)
  | branch (index : UInt32) (taken : Bool)
  | funCall (index : UInt32) (code : CodeId)
deriving DecidableEq

namespace SlotKind

/-- The name used in answers about a slot. -/
def name : SlotKind → String
  | nbr => "Nbr"
  | rep => "Rep"
  | foldHood => "FoldHood"
  | branch => "Branch"
  | funCall => "FunCall"

end SlotKind

namespace Slot

def kind : Slot → SlotKind
  | nbr _ => .nbr
  | rep _ => .rep
  | foldHood _ => .foldHood
  | branch _ _ => .branch
  | funCall _ _ => .funCall

def index : Slot → UInt32
  | nbr i | rep i | foldHood i | branch i _ | funCall i _ => i

/-- Place of the kind in the order of slots. -/
def kindRank : Slot → Nat
  | nbr _ => 0
  | rep _ => 1
  | foldHood _ => 2
  | branch _ _ => 3
  | funCall _ _ => 4

/-- The branch side taken; false for other slots. -/
def side : Slot → Bool
  | branch _ taken => taken
  | _ => false

/-- The text of the code called; empty for other slots. -/
def codeText : Slot → String
  | funCall _ code => code.text
  | _ => ""

/-- Slots are ordered by kind, then index, then side or code. -/
def order : Slot → Slot → Ordering :=
  compareLex (compareOn kindRank) <| compareLex (compareOn index) <|
    compareLex (compareOn side) (compareOn codeText)

instance : Ord Slot := ⟨order⟩

instance : Std.TransOrd Slot := inferInstanceAs (Std.TransCmp (compareLex _ _))

theorem eq_of_order {a b : Slot} (h : order a b = .eq) : a = b := by
  simp only [order, compareLex_eq_eq, compareOn, Std.LawfulEqOrd.compare_eq_iff_eq] at h
  obtain ⟨hkind, hindex, hside, hcode⟩ := h
  cases a <;> cases b <;> simp_all [kindRank, index, side, codeText]
  rename_i i c j d
  cases c; cases d
  simp_all

instance : Std.LawfulEqOrd Slot where
  compare_self := Std.ReflOrd.compare_self
  eq_of_compare := eq_of_order

/-- A slot as it stands in the display of a path. -/
def display : Slot → String
  | nbr i => s!"nbr#{i}"
  | rep i => s!"rep#{i}"
  | foldHood i => s!"foldhood#{i}"
  | branch i taken => "branch#" ++ toString i ++ (if taken then "[then]" else "[else]")
  | funCall i code => "fun#" ++ toString i ++ "[" ++ code.text ++ "]"

end Slot

/-- The slots entered from the root, outermost first. -/
abbrev Path := List Slot

namespace Path

/-- The place of the whole program. -/
def root : Path := []

/-- The path one slot deeper. -/
def push (path : Path) (slot : Slot) : Path := path ++ [slot]

/-- Whether the path ends in a slot of this kind. -/
def endsIn (path : Path) (kind : SlotKind) : Bool :=
  path.getLast?.any fun slot => slot.kind = kind

/-- Whether `start` is a prefix of the path. -/
def startsWith (path start : Path) : Bool := start.isPrefixOf path

/-- The path as text, one `/` before each slot, and `/` alone for the root. -/
def display (path : Path) : String :=
  if path.isEmpty then "/" else String.join (path.map fun slot => "/" ++ slot.display)

end Path

end FieldCalculus
