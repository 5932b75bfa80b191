import FieldCalculus.Builtin
import FieldCalculus.Number
import FieldCalculus.Path

/-!
Programs and values. The two are one family, since a literal holds a value and a
closure holds the body of a lambda. Captured environments are entry lists in
increasing order of the names.
-/

namespace FieldCalculus

mutual

/-- A program. -/
inductive Expr where
  | literal (value : Value)
  | var (name : String)
  /-- A reading of one of the device's own sensors. -/
  | sense (name : String)
  /-- A reading relative to the neighbor in focus, or to the device itself. -/
  | neighborSense (name : String)
  /-- The name of the device. -/
  | selfId
  | lambda (code : CodeId) (params : List String) (body : Expr)
  | apply (function : Expr) (args : List Expr)
  | letIn (name : String) (value body : Expr)
  | branch (condition thenSide elseSide : Expr)
  /-- State carried across rounds: `init` on the first visit, afterwards `update`
  with `var` bound to the value of the round before. -/
  | rep (init : Expr) (var : String) (update : Expr)
  /-- What the neighbor in focus computed here; its own `body` when there is none. -/
  | nbr (body : Expr)
  /-- Combines the values that `generator` takes at each neighbor, starting from
  `default`, and at the device itself first if `includeSelf`. -/
  | neighborFold (default accumulator generator : Expr) (includeSelf : Bool)

/-- What a program computes with. -/
inductive Value where
  | unit
  | bool (b : Bool)
  | number (n : Number)
  | text (s : String)
  | tuple (items : List Value)
  | builtin (b : Builtin)
  /-- A lambda with the bindings visible where it was made. -/
  | closure (code : CodeId) (params : List String) (body : Expr) (env : List (String × Value))

end

instance : Inhabited Value := ⟨.unit⟩
instance : Inhabited Expr := ⟨.literal .unit⟩

/-- Variable bindings in increasing order of the names. -/
abbrev Env := List (String × Value)

namespace Expr

mutual

/-- How many nodes a program has. What a literal holds is not counted. -/
def size : Expr → Nat
  | literal _ | var _ | sense _ | neighborSense _ | selfId => 1
  | lambda _ _ body => 1 + size body
  | apply function args => 1 + size function + sizeAll args
  | letIn _ value body => 1 + size value + size body
  | branch condition thenSide elseSide => 1 + size condition + size thenSide + size elseSide
  | rep init _ update => 1 + size init + size update
  | nbr body => 1 + size body
  | neighborFold default accumulator generator _ =>
    1 + size default + size accumulator + size generator

/-- How many nodes the programs of a list have together. -/
def sizeAll : List Expr → Nat
  | [] => 0
  | e :: rest => size e + sizeAll rest

end

/-- The application of an operator. -/
def call (b : Builtin) (args : List Expr) : Expr := apply (literal (.builtin b)) args

/-- A number as a program. -/
def number (n : Number) : Expr := literal (.number n)

/-- A fold over the neighbors and the device itself. -/
def fold (default accumulator generator : Expr) : Expr :=
  neighborFold default accumulator generator true

/-- A fold over the neighbors alone. -/
def foldPlus (default accumulator generator : Expr) : Expr :=
  neighborFold default accumulator generator false

theorem size_pos (e : Expr) : 0 < e.size := by
  cases e <;> unfold size <;> omega

end Expr

/-! ## Equality of the calculus -/

mutual

/-- Equality as programs see it: numbers by `Number.equals`, and closures by their
code and captured bindings alone, since the code stands for the body. -/
def Value.equals : Value → Value → Bool
  | .unit, .unit => true
  | .bool a, .bool b => a == b
  | .number a, .number b => a.equals b
  | .text a, .text b => a == b
  | .tuple a, .tuple b => Value.equalsAll a b
  | .builtin a, .builtin b => a == b
  | .closure code _ _ env, .closure code' _ _ env' => code == code' && Value.equalsEnv env env'
  | _, _ => false

/-- Equality item by item. -/
def Value.equalsAll : List Value → List Value → Bool
  | [], [] => true
  | a :: as, b :: bs => Value.equals a b && Value.equalsAll as bs
  | _, _ => false

/-- Equality binding by binding. -/
def Value.equalsEnv : List (String × Value) → List (String × Value) → Bool
  | [], [] => true
  | (x, a) :: as, (y, b) :: bs => x == y && Value.equals a b && Value.equalsEnv as bs
  | _, _ => false

end

mutual

/-- Equality of programs node by node, with literals compared as values. -/
def Expr.equals : Expr → Expr → Bool
  | .literal a, .literal b => a.equals b
  | .var a, .var b => a == b
  | .sense a, .sense b => a == b
  | .neighborSense a, .neighborSense b => a == b
  | .selfId, .selfId => true
  | .lambda code params body, .lambda code' params' body' =>
    code == code' && params == params' && Expr.equals body body'
  | .apply f args, .apply f' args' => Expr.equals f f' && Expr.equalsAll args args'
  | .letIn x value body, .letIn x' value' body' =>
    x == x' && Expr.equals value value' && Expr.equals body body'
  | .branch c t e, .branch c' t' e' => Expr.equals c c' && Expr.equals t t' && Expr.equals e e'
  | .rep init x update, .rep init' x' update' =>
    Expr.equals init init' && x == x' && Expr.equals update update'
  | .nbr body, .nbr body' => Expr.equals body body'
  | .neighborFold d a g self, .neighborFold d' a' g' self' =>
    Expr.equals d d' && Expr.equals a a' && Expr.equals g g' && self == self'
  | _, _ => false

/-- Equality program by program. -/
def Expr.equalsAll : List Expr → List Expr → Bool
  | [], [] => true
  | a :: as, b :: bs => Expr.equals a b && Expr.equalsAll as bs
  | _, _ => false

end

end FieldCalculus
