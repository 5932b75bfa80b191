import FieldCalculus.Dict
import FieldCalculus.Expr

/-!
What a round leaves behind: the export, which neighbors read, and the device's own
state, which holds the values of its `rep` constructs for the next round.
-/

namespace FieldCalculus

/-- The name of a device, unique in its network. -/
structure DeviceId where
  name : String
deriving DecidableEq, Inhabited

instance : Ord DeviceId := ⟨compareOn DeviceId.name⟩
instance : Std.TransOrd DeviceId := inferInstanceAs (Std.TransCmp (compareOn DeviceId.name))
instance : Std.LawfulEqOrd DeviceId where
  compare_self := Std.ReflOrd.compare_self
  eq_of_compare {a b} h := by
    cases a; cases b
    rename_i x y
    have hname : compare x y = .eq := h
    exact congrArg DeviceId.mk (Std.LawfulEqOrd.eq_of_compare hname)

/-- Every observable value of one round, by the path at which it arose. The value at
the root path is the result of the program. -/
structure Export where
  entries : Dict Path Value
deriving Inhabited

namespace Export

/-- The export with the entries put in turn and the result at the root path. -/
def ofPuts (puts : List (Path × Value)) (root : Value) : Export :=
  ⟨(Dict.ofList puts).insert Path.root root⟩

def get? (e : Export) (path : Path) : Option Value := e.entries.find? path

def contains (e : Export) (path : Path) : Bool := e.entries.contains path

def root? (e : Export) : Option Value := e.get? Path.root

def size (e : Export) : Nat := e.entries.size

def isEmpty (e : Export) : Bool := e.entries.isEmpty

/-- The entries in the order of their paths. -/
def toList (e : Export) : List (Path × Value) := e.entries.entries

/-- The entries that constructs carrying state produced. -/
def repEntries (e : Export) : List (Path × Value) :=
  e.toList.filter fun entry => Path.endsIn entry.1 .rep

/-- Equality of the calculus, entry by entry. -/
def equals (a b : Export) : Bool := equalEntries a.toList b.toList
where
  equalEntries : List (Path × Value) → List (Path × Value) → Bool
    | [], [] => true
    | (p, v) :: as, (q, w) :: bs => p == q && v.equals w && equalEntries as bs
    | _, _ => false

end Export

/-- The values remembered by `rep` constructs, by path. A path not visited in a round
keeps its value until a later round visits it. -/
structure DeviceState where
  values : Dict Path Value
deriving Inhabited

namespace DeviceState

/-- The state of a device that has not completed a round. -/
def empty : DeviceState := ⟨.empty⟩

def get? (s : DeviceState) (path : Path) : Option Value := s.values.find? path

def size (s : DeviceState) : Nat := s.values.size

/-- The remembered values in the order of their paths. -/
def toList (s : DeviceState) : List (Path × Value) := s.values.entries

/-- Takes over the rep entries of a finished round. -/
def absorb (s : DeviceState) (e : Export) : DeviceState :=
  ⟨s.values.insertAll e.repEntries⟩

end DeviceState

end FieldCalculus
