import FieldCalculus.Context
import FieldCalculus.Proofs.Export
import Mathlib.Data.List.Induction

/-!
The levels of a program. Entering a slot starts a new level, on which slots are counted
from zero again. For each expression `openers` lists the constructs that may open the slots of
its own level, in the order in which evaluation meets them, and `opened` keeps those that do so
in a program: where no lambda occurs, applications open none. Following a path through these
lists leads to the one expression that stands there. A `rep` has two sides and a path does
not say which was taken, so `levelAt` is told which `rep` slots have a remembered value.
-/

namespace FieldCalculus

/-! ## All nodes of a program -/

mutual

/-- Every node of a program: also those of lambda bodies, and of the closures that its
literals hold. -/
def Expr.nodes : Expr → List Expr
  | .literal v => .literal v :: Value.nodes v
  | .var name => [.var name]
  | .sense name => [.sense name]
  | .neighborSense name => [.neighborSense name]
  | .selfId => [.selfId]
  | .lambda code params body => .lambda code params body :: Expr.nodes body
  | .apply function args => .apply function args :: (Expr.nodes function ++ Expr.nodesAll args)
  | .letIn name value body => .letIn name value body :: (Expr.nodes value ++ Expr.nodes body)
  | .branch condition thenSide elseSide =>
    .branch condition thenSide elseSide ::
      (Expr.nodes condition ++ Expr.nodes thenSide ++ Expr.nodes elseSide)
  | .rep init name update => .rep init name update :: (Expr.nodes init ++ Expr.nodes update)
  | .nbr body => .nbr body :: Expr.nodes body
  | .neighborFold default accumulator generator includeSelf =>
    .neighborFold default accumulator generator includeSelf ::
      (Expr.nodes default ++ Expr.nodes accumulator ++ Expr.nodes generator)

/-- The nodes that a value holds; a closure counts as the lambda that it was made by. -/
def Value.nodes : Value → List Expr
  | .tuple items => Value.nodesAll items
  | .closure code params body env =>
    .lambda code params body :: (Expr.nodes body ++ Value.nodesEnv env)
  | .unit | .bool _ | .number _ | .text _ | .builtin _ => []

def Expr.nodesAll : List Expr → List Expr
  | [] => []
  | e :: rest => Expr.nodes e ++ Expr.nodesAll rest

def Value.nodesAll : List Value → List Expr
  | [] => []
  | v :: rest => Value.nodes v ++ Value.nodesAll rest

def Value.nodesEnv : List (String × Value) → List Expr
  | [] => []
  | (_, v) :: rest => Value.nodes v ++ Value.nodesEnv rest

end

theorem Expr.self_mem_nodes (e : Expr) : e ∈ e.nodes := by
  cases e <;> simp [Expr.nodes]

theorem Expr.nodesAll_subset {es nodes : List Expr} :
    Expr.nodesAll es ⊆ nodes ↔ ∀ e ∈ es, e.nodes ⊆ nodes := by
  induction es with
  | nil => simp [Expr.nodesAll]
  | cons head rest ih => simp [Expr.nodesAll, List.append_subset, ih]

theorem Value.nodesAll_subset {vs : List Value} {nodes : List Expr} :
    Value.nodesAll vs ⊆ nodes ↔ ∀ v ∈ vs, v.nodes ⊆ nodes := by
  induction vs with
  | nil => simp [Value.nodesAll]
  | cons head rest ih => simp [Value.nodesAll, List.append_subset, ih]

theorem Value.nodesEnv_subset {env : Env} {nodes : List Expr} :
    Value.nodesEnv env ⊆ nodes ↔ ∀ entry ∈ env, entry.2.nodes ⊆ nodes := by
  induction env with
  | nil => simp [Value.nodesEnv]
  | cons head rest ih => simp [Value.nodesEnv, List.append_subset, ih]

/-- With each of its nodes the list holds the nodes of that node. -/
def NodesClosed (nodes : List Expr) : Prop := ∀ node ∈ nodes, node.nodes ⊆ nodes

namespace NodesClosed

theorem nil : NodesClosed [] := by
  intro node hnode
  cases hnode

theorem append {xs ys : List Expr} (hx : NodesClosed xs) (hy : NodesClosed ys) :
    NodesClosed (xs ++ ys) := by
  intro node hnode
  rcases List.mem_append.mp hnode with hnode | hnode
  · exact List.subset_append_of_subset_left _ (hx node hnode)
  · exact List.subset_append_of_subset_right _ (hy node hnode)

theorem cons {e : Expr} {parts : List Expr} (hparts : NodesClosed parts)
    (hnodes : e.nodes ⊆ e :: parts) : NodesClosed (e :: parts) := by
  intro node hnode
  rcases List.mem_cons.mp hnode with rfl | hnode
  · exact hnodes
  · exact List.subset_cons_of_subset _ (hparts node hnode)

end NodesClosed

mutual

/-- A node of a node of an expression is a node of the expression. -/
theorem Expr.nodes_closed (e : Expr) : NodesClosed e.nodes :=
  match e with
  | .literal v => v.nodes_closed.cons (List.Subset.refl _)
  | .var _ | .sense _ | .neighborSense _ | .selfId => .cons .nil (List.Subset.refl _)
  | .lambda _ _ body => body.nodes_closed.cons (List.Subset.refl _)
  | .apply function args =>
    (function.nodes_closed.append (Expr.nodesAll_closed args)).cons (List.Subset.refl _)
  | .letIn _ value body => (value.nodes_closed.append body.nodes_closed).cons (List.Subset.refl _)
  | .branch condition thenSide elseSide =>
    ((condition.nodes_closed.append thenSide.nodes_closed).append elseSide.nodes_closed).cons
      (List.Subset.refl _)
  | .rep init _ update => (init.nodes_closed.append update.nodes_closed).cons (List.Subset.refl _)
  | .nbr body => body.nodes_closed.cons (List.Subset.refl _)
  | .neighborFold initial accumulator generator _ =>
    ((initial.nodes_closed.append accumulator.nodes_closed).append
      generator.nodes_closed).cons (List.Subset.refl _)

theorem Value.nodes_closed (v : Value) : NodesClosed v.nodes :=
  match v with
  | .tuple items => Value.nodesAll_closed items
  | .closure _ _ body env => (body.nodes_closed.append (Value.nodesEnv_closed env)).cons
      (List.cons_subset_cons _ (List.subset_append_left _ _))
  | .unit | .bool _ | .number _ | .text _ | .builtin _ => .nil

theorem Expr.nodesAll_closed (es : List Expr) : NodesClosed (Expr.nodesAll es) :=
  match es with
  | [] => .nil
  | e :: rest => e.nodes_closed.append (Expr.nodesAll_closed rest)

theorem Value.nodesAll_closed (vs : List Value) : NodesClosed (Value.nodesAll vs) :=
  match vs with
  | [] => .nil
  | v :: rest => v.nodes_closed.append (Value.nodesAll_closed rest)

theorem Value.nodesEnv_closed (env : List (String × Value)) : NodesClosed (Value.nodesEnv env) :=
  match env with
  | [] => .nil
  | (_, v) :: rest => v.nodes_closed.append (Value.nodesEnv_closed rest)

end

/-! ## Where built-ins stand -/

mutual

/-- Built-ins stand only where they are called, as the function of an application or as
an accumulator; they are never values that a program passes around. -/
def Expr.callsBuiltins : Expr → Bool
  | .literal v => Value.builtinFree v
  | .var _ | .sense _ | .neighborSense _ | .selfId => true
  | .lambda _ _ body => Expr.callsBuiltins body
  | .apply (.literal (.builtin _)) args => Expr.callsBuiltinsAll args
  | .apply function args => Expr.callsBuiltins function && Expr.callsBuiltinsAll args
  | .letIn _ value body => Expr.callsBuiltins value && Expr.callsBuiltins body
  | .branch condition thenSide elseSide =>
    Expr.callsBuiltins condition && Expr.callsBuiltins thenSide && Expr.callsBuiltins elseSide
  | .rep init _ update => Expr.callsBuiltins init && Expr.callsBuiltins update
  | .nbr body => Expr.callsBuiltins body
  | .neighborFold default (.literal (.builtin _)) generator _ =>
    Expr.callsBuiltins default && Expr.callsBuiltins generator
  | .neighborFold default accumulator generator _ =>
    Expr.callsBuiltins default && Expr.callsBuiltins accumulator && Expr.callsBuiltins generator

/-- The value neither is nor holds a built-in, except where the body of a closure calls it. -/
def Value.builtinFree : Value → Bool
  | .unit | .bool _ | .number _ | .text _ => true
  | .builtin _ => false
  | .tuple items => Value.builtinFreeAll items
  | .closure _ _ body env => Expr.callsBuiltins body && Value.builtinFreeEnv env

def Expr.callsBuiltinsAll : List Expr → Bool
  | [] => true
  | e :: rest => Expr.callsBuiltins e && Expr.callsBuiltinsAll rest

def Value.builtinFreeAll : List Value → Bool
  | [] => true
  | v :: rest => Value.builtinFree v && Value.builtinFreeAll rest

def Value.builtinFreeEnv : List (String × Value) → Bool
  | [] => true
  | (_, v) :: rest => Value.builtinFree v && Value.builtinFreeEnv rest

end

theorem Expr.callsBuiltinsAll_iff {es : List Expr} :
    Expr.callsBuiltinsAll es ↔ ∀ e ∈ es, e.callsBuiltins := by
  induction es with
  | nil => simp [Expr.callsBuiltinsAll]
  | cons head rest ih => simp [Expr.callsBuiltinsAll, ih]

theorem Value.builtinFreeAll_iff {vs : List Value} :
    Value.builtinFreeAll vs ↔ ∀ v ∈ vs, v.builtinFree := by
  induction vs with
  | nil => simp [Value.builtinFreeAll]
  | cons head rest ih => simp [Value.builtinFreeAll, ih]

theorem Value.builtinFreeEnv_iff {env : Env} :
    Value.builtinFreeEnv env ↔ ∀ entry ∈ env, entry.2.builtinFree := by
  induction env with
  | nil => simp [Value.builtinFreeEnv]
  | cons head rest ih => simp [Value.builtinFreeEnv, ih]

/-! ## The constructs that may open slots -/

mutual

/-- The constructs that may open the slots of an expression's own level, in the order of
evaluation. Calling a built-in that is named opens none. -/
def Expr.openers : Expr → List Expr
  | .literal _ | .var _ | .sense _ | .neighborSense _ | .selfId | .lambda _ _ _ => []
  | .apply (.literal (.builtin _)) args => Expr.openersAll args
  | .apply function args =>
    Expr.openers function ++ Expr.openersAll args ++ [.apply function args]
  | .letIn _ value body => Expr.openers value ++ Expr.openers body
  | .branch condition thenSide elseSide =>
    Expr.openers condition ++ [.branch condition thenSide elseSide]
  | .rep init name update => [.rep init name update]
  | .nbr body => [.nbr body]
  | .neighborFold default accumulator generator includeSelf =>
    Expr.openers default ++ Expr.openers accumulator ++
      [.neighborFold default accumulator generator includeSelf]

def Expr.openersAll : List Expr → List Expr
  | [] => []
  | e :: rest => Expr.openers e ++ Expr.openersAll rest

end

mutual

/-- What opens a slot of a level is a node of it. -/
theorem Expr.openers_subset (e : Expr) : e.openers ⊆ e.nodes := by
  cases e with
  | literal _ | var _ | sense _ | neighborSense _ | selfId | lambda _ _ _ =>
      exact List.nil_subset _
  | apply function args =>
      have hfunction := function.openers_subset
      have hargs := Expr.openersAll_subset args
      unfold Expr.openers
      split <;> grind [Expr.nodes]
  | letIn _ value body =>
      have hvalue := value.openers_subset
      have hbody := body.openers_subset
      grind [Expr.openers, Expr.nodes]
  | branch condition thenSide elseSide =>
      have hcondition := condition.openers_subset
      grind [Expr.openers, Expr.nodes]
  | rep init name update => simp [Expr.openers, Expr.nodes]
  | nbr body => simp [Expr.openers, Expr.nodes]
  | neighborFold initial accumulator generator includeSelf =>
      have hinitial := initial.openers_subset
      have haccumulator := accumulator.openers_subset
      grind [Expr.openers, Expr.nodes]

theorem Expr.openersAll_subset (es : List Expr) : Expr.openersAll es ⊆ Expr.nodesAll es := by
  cases es with
  | nil => exact List.nil_subset _
  | cons e rest =>
      have he := e.openers_subset
      have hrest := Expr.openersAll_subset rest
      grind [Expr.openersAll, Expr.nodesAll]

end

namespace Expr

/-! ## The constructs that open slots in a program -/

def isLambda : Expr → Bool
  | .lambda _ _ _ => true
  | _ => false

def isApply : Expr → Bool
  | .apply _ _ => true
  | _ => false

/-- Whether a lambda occurs in the program, or a closure in one of its literals. -/
def hasLambdas (program : Expr) : Bool := program.nodes.any isLambda

theorem hasLambdas_of_mem {program body : Expr} {code : CodeId} {params : List String}
    (h : .lambda code params body ∈ program.nodes) : program.hasLambdas :=
  List.any_eq_true.mpr ⟨_, h, rfl⟩

/-- Whether a construct opens a slot in the program: an application does so only where a lambda
may be applied. -/
def opens (program opener : Expr) : Bool := program.hasLambdas || !opener.isApply

/-- The constructs that open the slots of a level of the program. -/
def opened (program level : Expr) : List Expr := level.openers.filter program.opens

def openedAll (program : Expr) (levels : List Expr) : List Expr :=
  (openersAll levels).filter program.opens

theorem opened_subset (program level : Expr) : program.opened level ⊆ level.nodes :=
  List.Subset.trans (List.filter_subset_self _) level.openers_subset

section Opened

variable (program : Expr)

theorem openedAll_cons (e : Expr) (rest : List Expr) :
    program.openedAll (e :: rest) = program.opened e ++ program.openedAll rest := by
  simp [openedAll, openersAll, opened]

theorem opened_call (b : Builtin) (args : List Expr) :
    program.opened (.apply (.literal (.builtin b)) args) = program.openedAll args := by
  simp [opened, openers, openedAll]

theorem opened_apply {function : Expr} {args : List Expr}
    (h : ∀ b, function ≠ .literal (.builtin b)) :
    program.opened (.apply function args) = program.opened function ++ program.openedAll args ++
      if program.hasLambdas then [.apply function args] else [] := by
  have hopeners : (Expr.apply function args).openers =
      function.openers ++ openersAll args ++ [.apply function args] := by
    rw [openers]
    exact fun b hb => h b hb
  have hopens : program.opens (.apply function args) = program.hasLambdas := by
    simp [opens, isApply]
  simp [opened, openedAll, hopeners, List.filter_singleton, hopens]

theorem opened_letIn (name : String) (value body : Expr) :
    program.opened (.letIn name value body) = program.opened value ++ program.opened body := by
  simp [opened, openers]

theorem opened_branch (condition thenSide elseSide : Expr) :
    program.opened (.branch condition thenSide elseSide) =
      program.opened condition ++ [.branch condition thenSide elseSide] := by
  simp [opened, openers, opens, isApply]

theorem opened_rep (init : Expr) (name : String) (update : Expr) :
    program.opened (.rep init name update) = [.rep init name update] := by
  simp [opened, openers, opens, isApply]

theorem opened_nbr (body : Expr) : program.opened (.nbr body) = [.nbr body] := by
  simp [opened, openers, opens, isApply]

theorem opened_neighborFold (default accumulator generator : Expr) (includeSelf : Bool) :
    program.opened (.neighborFold default accumulator generator includeSelf) =
      program.opened default ++ program.opened accumulator ++
        [.neighborFold default accumulator generator includeSelf] := by
  simp [opened, openers, opens, isApply]

end Opened

/-- The body of the first lambda with this code. -/
def bodyOf (program : Expr) (code : CodeId) : Option Expr :=
  program.nodes.findSome? fun
    | .lambda other _ body => if other = code then some body else none
    | _ => none

/-- Distinct lambda bodies of the program have distinct codes. -/
def CodesDistinct (program : Expr) : Prop :=
  ∀ {code params body params' body'}, .lambda code params body ∈ program.nodes →
    .lambda code params' body' ∈ program.nodes → body = body'

theorem bodyOf_of_mem {program : Expr} (hcodes : program.CodesDistinct) {code : CodeId}
    {params : List String} {body : Expr} (hmem : .lambda code params body ∈ program.nodes) :
    program.bodyOf code = some body := by
  cases hfound : program.bodyOf code with
  | none =>
      have hnone := List.findSome?_eq_none_iff.mp hfound _ hmem
      simp at hnone
  | some other =>
      obtain ⟨node, hnode, hbody⟩ := List.exists_of_findSome?_eq_some hfound
      cases node with
      | lambda code' params' body' =>
          simp only [Option.ite_none_right_eq_some, Option.some.injEq] at hbody
          obtain ⟨rfl, rfl⟩ := hbody
          rw [hcodes hnode hmem]
      | _ => cases hbody

/-! ## What stands at a path -/

/-- The level behind a slot that `opener` has opened. Behind a `rep` it is the update if a
value is remembered there. -/
def behind (program opener : Expr) (slot : Slot) (remembered : Bool) : Option Expr :=
  match slot, opener with
  | .nbr _, .nbr body => some body
  | .rep _, .rep init _ update => some (if remembered then update else init)
  | .foldHood _, .neighborFold _ _ generator _ => some generator
  | .branch _ taken, .branch _ thenSide elseSide => some (if taken then thenSide else elseSide)
  | .funCall _ code, .apply _ _ => program.bodyOf code
  | _, _ => none

/-- The level that a slot of `level` leads to. -/
def enter (program level : Expr) (slot : Slot) (remembered : Bool) : Option Expr :=
  (program.opened level)[slot.index.toNat]?.bind fun opener =>
    program.behind opener slot remembered

theorem enter_congr (program level : Expr) {slot : Slot} {remembered remembered' : Bool}
    (h : slot.kind = .rep → remembered = remembered') :
    program.enter level slot remembered = program.enter level slot remembered' := by
  unfold enter
  congr 1
  funext opener
  cases slot with
  | rep index => rw [h rfl]
  | _ => cases opener <;> rfl

/-- The level that slots, innermost first, lead to. -/
def levelFrom (program : Expr) (remembered : Path → Bool) : List Slot → Option Expr
  | [] => some program
  | slot :: outer =>
    (levelFrom program remembered outer).bind fun level =>
      program.enter level slot (remembered (slot :: outer).reverse)

/-- The expression that stands at a path of the program. -/
def levelAt (program : Expr) (remembered : Path → Bool) (path : Path) : Option Expr :=
  levelFrom program remembered path.reverse

theorem levelAt_root (program : Expr) (remembered : Path → Bool) :
    program.levelAt remembered Path.root = some program := rfl

theorem levelAt_push (program : Expr) (remembered : Path → Bool) (path : Path) (slot : Slot) :
    program.levelAt remembered (path.push slot) =
      (program.levelAt remembered path).bind fun level =>
        program.enter level slot (remembered (path.push slot)) := by
  simp [levelAt, Path.push, levelFrom]

/-- What stands behind a slot is a part of what opened it, or the body of a lambda. -/
theorem behind_mem {program opener part : Expr} {slot : Slot} {remembered : Bool}
    (hopener : opener ∈ program.nodes)
    (h : program.behind opener slot remembered = some part) : part ∈ program.nodes := by
  have hparts := program.nodes_closed opener hopener
  have hpart : part ∈ opener.nodes → part ∈ program.nodes := fun hmem => hparts hmem
  cases slot with
  | funCall index code =>
      cases opener with
      | apply function args =>
          obtain ⟨node, hnode, hbody⟩ := List.exists_of_findSome?_eq_some h
          cases node with
          | lambda code' params body =>
              simp only [Option.ite_none_right_eq_some, Option.some.injEq] at hbody
              obtain ⟨-, rfl⟩ := hbody
              refine program.nodes_closed _ hnode ?_
              simp [nodes, self_mem_nodes]
          | _ => cases hbody
      | _ => cases h
  | nbr _ =>
      cases opener with
      | nbr body =>
          cases h
          exact hpart (by simp [nodes, self_mem_nodes])
      | _ => cases h
  | foldHood _ =>
      cases opener with
      | neighborFold _ _ generator _ =>
          cases h
          exact hpart (by simp [nodes, self_mem_nodes])
      | _ => cases h
  | rep _ =>
      cases opener with
      | rep init _ update =>
          cases h
          cases remembered
          · exact hpart (by simp [nodes, self_mem_nodes])
          · exact hpart (by simp [nodes, self_mem_nodes])
      | _ => cases h
  | branch _ taken =>
      cases opener with
      | branch _ thenSide elseSide =>
          cases h
          cases taken
          · exact hpart (by simp [nodes, self_mem_nodes])
          · exact hpart (by simp [nodes, self_mem_nodes])
      | _ => cases h

theorem enter_eq_some {program level part : Expr} {slot : Slot} {remembered : Bool}
    (h : program.enter level slot remembered = some part) :
    ∃ opener ∈ program.opened level, program.behind opener slot remembered = some part := by
  obtain ⟨opener, hopener, hbehind⟩ := Option.bind_eq_some_iff.mp h
  exact ⟨opener, List.mem_of_getElem? hopener, hbehind⟩

/-- What stands at a path is a node of the program. -/
theorem levelAt_mem {program level : Expr} {remembered : Path → Bool} {path : Path}
    (h : program.levelAt remembered path = some level) : level ∈ program.nodes := by
  induction path using List.reverseRecOn generalizing level with
  | nil =>
      cases h
      exact program.self_mem_nodes
  | append_singleton path slot ih =>
      change program.levelAt remembered (Path.push path slot) = some level at h
      rw [levelAt_push] at h
      obtain ⟨outer, houter, henter⟩ := Option.bind_eq_some_iff.mp h
      obtain ⟨opener, hopener, hbehind⟩ := enter_eq_some henter
      have hnodes := program.nodes_closed outer (ih houter)
      exact behind_mem (hnodes (program.opened_subset outer hopener)) hbehind

/-- No first value of a `rep` opens a slot. -/
def PlainInits (program : Expr) : Prop :=
  ∀ {init name update}, .rep init name update ∈ program.nodes → program.opened init = []

/-- Behind a `rep` slot without a remembered value stands its first value. -/
theorem opened_of_not_remembered {program level : Expr} {remembered : Path → Bool}
    (hplain : program.PlainInits) {path : Path}
    (h : program.levelAt remembered path = some level) (hends : Path.endsIn path .rep)
    (hnew : remembered path = false) : program.opened level = [] := by
  induction path using List.reverseRecOn with
  | nil => cases hends
  | append_singleton path slot _ =>
      change program.levelAt remembered (Path.push path slot) = some level at h
      change remembered (Path.push path slot) = false at hnew
      change Path.endsIn (Path.push path slot) .rep at hends
      rw [levelAt_push, hnew] at h
      rw [Path.endsIn_push] at hends
      obtain ⟨outer, houter, henter⟩ := Option.bind_eq_some_iff.mp h
      obtain ⟨opener, hopener, hbehind⟩ := enter_eq_some henter
      have hmem := program.nodes_closed outer (levelAt_mem houter)
        (program.opened_subset outer hopener)
      cases slot with
      | rep index =>
          cases opener with
          | rep init name update =>
              cases hbehind
              exact hplain hmem
          | _ => cases hbehind
      | _ => cases hends

/-- Where no first value opens a slot, a path leads on from a `rep` slot only if a value is
remembered there. -/
theorem remembered_of_levelAt {program level : Expr} {remembered : Path → Bool}
    (hplain : program.PlainInits) {start path : Path}
    (h : program.levelAt remembered path = some level)
    (hstart : start <+: path) (hne : start ≠ path) (hends : Path.endsIn start .rep) :
    remembered start = true := by
  induction path using List.reverseRecOn generalizing level with
  | nil => exact absurd (List.prefix_nil.mp hstart) hne
  | append_singleton path slot ih =>
      change program.levelAt remembered (Path.push path slot) = some level at h
      rw [levelAt_push] at h
      obtain ⟨outer, houter, henter⟩ := Option.bind_eq_some_iff.mp h
      obtain ⟨opener, hopener, -⟩ := enter_eq_some henter
      have hextends : start <+: path := (List.prefix_concat_iff.mp hstart).resolve_left hne
      by_cases hlast : start = path
      · subst hlast
        by_contra hnew
        rw [opened_of_not_remembered hplain houter hends (by simpa using hnew)] at hopener
        cases hopener
      · exact ih houter hextends hlast

/-- Only the `rep` slots on the way decide what stands at a path. -/
theorem levelAt_congr (program : Expr) {remembered remembered' : Path → Bool} {path : Path}
    (h : ∀ start, start <+: path → Path.endsIn start .rep →
      remembered start = remembered' start) :
    program.levelAt remembered path = program.levelAt remembered' path := by
  induction path using List.reverseRecOn with
  | nil => rfl
  | append_singleton path slot ih =>
      change program.levelAt remembered (Path.push path slot) =
        program.levelAt remembered' (Path.push path slot)
      have houter := ih fun start hstart => h start (hstart.trans (List.prefix_append _ _))
      have hlast : slot.kind = .rep →
          remembered (Path.push path slot) = remembered' (Path.push path slot) := by
        intro hkind
        exact h (Path.push path slot) List.prefix_rfl (by simp [Path.endsIn_push, hkind])
      rw [levelAt_push, levelAt_push, houter]
      exact congrArg _ (funext fun level => enter_congr program level hlast)

end Expr

end FieldCalculus
