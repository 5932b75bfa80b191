import FieldCalculus.Document.Word

/-!
Structured texts as trees. Every format is read into this tree and printed from it;
what the tree stands for is decided by whoever asks for a value at some place.
-/

namespace FieldCalculus

/-- A leaf of a structured text. -/
inductive Scalar where
  | null
  | bool (b : Bool)
  | int (n : Int)
  | number (n : Number)
  | text (s : String)
  /-- A text without quotes, which may be read in several ways. -/
  | word (s : String)
deriving DecidableEq, Inhabited

/-- A structured text. The fields of an object keep their order, and a name may occur
more than once. -/
inductive Document where
  | scalar (s : Scalar)
  | list (items : List Document)
  | object (fields : List (String × Document))
  /-- Content under a mark that changes which choice it is. -/
  | tagged (content : Document)
  /-- Well-formed text that stands for nothing, such as a number out of range. -/
  | unreadable

namespace Document

instance : Inhabited Document := ⟨.unreadable⟩

def null : Document := .scalar .null
def bool (b : Bool) : Document := .scalar (.bool b)
def int (n : Int) : Document := .scalar (.int n)
def number (n : Number) : Document := .scalar (.number n)
def text (s : String) : Document := .scalar (.text s)

/-- The list of some texts. -/
def texts (l : List String) : Document := .list (l.map text)

/-- An object, if every name in it is readable. What is not readable matters only when
something is asked of it. -/
def ofFields (fields : List (Option String × Document)) : Document :=
  match fields.mapM fun (name, d) => name.map fun s => (s, d) with
  | some fields => .object fields
  | none => .unreadable

/-- An object with one field: a choice and what it holds. -/
def choice (name : String) (content : Document) : Document := .object [(name, content)]

mutual

/-- The document with the fields of all its objects in order of their names. -/
def sorted : Document → Document
  | .list items => .list (sortedItems items)
  | .object fields => .object ((sortedFields fields).mergeSort fun a b => compare a.1 b.1 != .gt)
  | .tagged content => .tagged (sorted content)
  | d => d

def sortedItems : List Document → List Document
  | [] => []
  | d :: rest => sorted d :: sortedItems rest

def sortedFields : List (String × Document) → List (String × Document)
  | [] => []
  | (name, d) :: rest => (name, sorted d) :: sortedFields rest

end

end Document

/-! ## Asking a document for a value -/

namespace Scalar

/-- The text of a leaf. A word stands for itself. -/
def text? : Scalar → Option String
  | text s | word s => some s
  | _ => none

def bool? : Scalar → Option Bool
  | bool b => some b
  | word s => Word.bool? s
  | _ => none

def number? : Scalar → Option Number
  | int n => some (.ofInt n)
  | number n => some n
  | word s => Word.number? s
  | _ => none

end Scalar

namespace Document

/-- A document without its marks. -/
def bare : Document → Document
  | .tagged content => content.bare
  | d => d

def text? (d : Document) : Option String :=
  match d.bare with
  | .scalar s => s.text?
  | _ => none

def bool? (d : Document) : Option Bool :=
  match d.bare with
  | .scalar s => s.bool?
  | _ => none

def number? (d : Document) : Option Number :=
  match d.bare with
  | .scalar s => s.number?
  | _ => none

/-- The items of a list. An empty word is an empty list. -/
def items? (d : Document) : Option (List Document) :=
  match d.bare with
  | .list items => some items
  | .scalar (.word "") => some []
  | _ => none

/-- The fields of an object. An empty word is an empty object. -/
def fields? (d : Document) : Option (List (String × Document)) :=
  match d.bare with
  | .object fields => some fields
  | .scalar (.word "") => some []
  | _ => none

/-- The one field with a name; `none` if it is missing or given twice. -/
def field? (fields : List (String × Document)) (name : String) : Option Document :=
  match fields.filter fun f => f.1 = name with
  | [(_, d)] => some d
  | _ => none

end Document

end FieldCalculus
