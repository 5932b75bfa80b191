import FieldCalculus.Lambda

/-!
Ready-made programs, the usual building blocks of aggregate programming. The names of
sensors are parameters, so that a deployment can use those it has.
-/

namespace FieldCalculus.Library

open FieldCalculus.Expr

def infinity : Expr := number .infinity

def plus (a b : Expr) : Expr := call .add [a, b]

/-- The item of a tuple at a fixed index. -/
def item (collection : Expr) (index : Nat) : Expr := call .get [collection, number (.ofNat index)]

/-- How many rounds the device has completed, from zero. -/
def roundCounter : Expr :=
  rep (number (.ofNat 0)) "n" (plus (var "n") (number (.ofNat 1)))

/-- The least sum of steps from a source, where `cost` is the step to a neighbor.
Sources start at zero, so the first round already seeds the field. -/
def gradientBy (source : String) (cost : Expr) : Expr :=
  rep (call .mux [sense source, number (.ofNat 0), infinity]) "d"
    (call .mux [sense source, number (.ofNat 0),
      foldPlus infinity (literal (.builtin .min)) (plus (nbr (var "d")) cost)])

/-- How many hops away the nearest source is. -/
def hopGradient (source : String) : Expr := gradientBy source (number (.ofNat 1))

/-- How far the nearest source is, by a relative sensor such as range. -/
def gradient (source metric : String) : Expr := gradientBy source (neighborSense metric)

/-- Keeps the pair with the smaller first item, the left one of equals. -/
def closer : Expr :=
  fn ["a", "b"] (call .mux
    [call .le [item (var "a") 0, item (var "b") 0], var "a", var "b"])

/-- Spreads what `payload` is at the sources along the shortest paths. A device that no
source reaches yields unit. -/
def broadcast (source : String) (payload : Expr) : Expr :=
  let unreached := call .tuple [infinity, literal .unit]
  let relayed := call .tuple
    [plus (item (nbr (var "g")) 0) (number (.ofNat 1)), item (nbr (var "g")) 1]
  let field := rep unreached "g" (call .mux
    [sense source, call .tuple [number (.ofNat 0), payload], foldPlus unreached closer relayed])
  item field 1

/-- How many neighbors run the same program. -/
def neighborCount : Expr :=
  foldPlus (number (.ofNat 0)) (literal (.builtin .add)) (nbr (number (.ofNat 1)))

/-- The greatest value of `own` that gossip has brought so far. -/
def gossipMax (own : Expr) : Expr :=
  letIn "local" own (rep (var "local") "m"
    (fold (var "local") (literal (.builtin .max)) (nbr (var "m"))))

/-- A hop gradient among the devices of a region. The others yield infinity and are
invisible to those inside. -/
def regionGradient (region source : String) : Expr :=
  branch (sense region) (hopGradient source) infinity

/-- The program of this name, with a name for its source sensor. -/
def byName? (name source : String) : Option Expr :=
  match name with
  | "counter" => some roundCounter
  | "hop_gradient" => some (hopGradient source)
  | "gradient" => some (gradient source "range")
  | "broadcast" => some (broadcast source selfId)
  | "neighbor_count" => some neighborCount
  | "gossip_max" => some (gossipMax (sense "value"))
  | "region_gradient" => some (regionGradient "region" source)
  | _ => none

end FieldCalculus.Library
