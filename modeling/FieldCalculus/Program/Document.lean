import FieldCalculus.Dict
import FieldCalculus.Document
import FieldCalculus.Expr

/-!
Programs as documents. A node is a choice: its name alone if it holds nothing, otherwise
an object with one field, whose content is what the node holds. Reading undoes writing,
and is lenient where the format that the document came from is lenient.
-/

namespace FieldCalculus

/-! ## Writing -/

mutual

def Value.document : Value → Document
  | .unit => .text "Unit"
  | .bool b => .choice "Bool" (.bool b)
  | .number n => .choice "Number" (.number n)
  | .text s => .choice "Text" (.text s)
  | .tuple items => .choice "Tuple" (.list (Value.documents items))
  | .builtin b => .choice "Function" (.choice "Builtin" (.text b.constructorName))
  | .closure code params body env =>
    .choice "Function" (.choice "Closure" (.object
      [("code", .text code.text), ("params", .texts params), ("body", Expr.document body),
       ("env", .object (Value.bindings env))]))

def Value.documents : List Value → List Document
  | [] => []
  | v :: rest => Value.document v :: Value.documents rest

def Value.bindings : List (String × Value) → List (String × Document)
  | [] => []
  | (name, v) :: rest => (name, Value.document v) :: Value.bindings rest

def Expr.document : Expr → Document
  | .literal v => .choice "Literal" (Value.document v)
  | .var name => .choice "VariableRef" (.text name)
  | .sense name => .choice "Sense" (.text name)
  | .neighborSense name => .choice "NeighborSense" (.text name)
  | .selfId => .text "SelfId"
  | .lambda code params body =>
    .choice "Lambda" (.object
      [("code", .text code.text), ("params", .texts params), ("body", Expr.document body)])
  | .apply function args =>
    .choice "Apply" (.object
      [("function", Expr.document function), ("args", .list (Expr.documents args))])
  | .letIn name value body =>
    .choice "Let" (.object
      [("name", .text name), ("value", Expr.document value), ("body", Expr.document body)])
  | .branch condition thenSide elseSide =>
    .choice "Branch" (.object
      [("condition", Expr.document condition), ("then", Expr.document thenSide),
       ("otherwise", Expr.document elseSide)])
  | .rep init var update =>
    .choice "Rep" (.object
      [("init", Expr.document init), ("var", .text var), ("update", Expr.document update)])
  | .nbr body => .choice "Nbr" (Expr.document body)
  | .neighborFold default accumulator generator includeSelf =>
    .choice "NeighborFold" (.object
      [("default", Expr.document default), ("accumulator", Expr.document accumulator),
       ("generator", Expr.document generator), ("include_self", .bool includeSelf)])

def Expr.documents : List Expr → List Document
  | [] => []
  | e :: rest => Expr.document e :: Expr.documents rest

end

/-! ## Reading -/

/-- What a format leaves open about records and choices. -/
structure Reading where
  /-- How many containers a program may be nested in. -/
  levels : Nat
  /-- Whether a record may be a list of all its fields in order, and a choice that holds
  nothing an object with a null. -/
  positional : Bool
  /-- Whether code names and environments take a level besides their own containers. -/
  wraps : Bool

namespace Reading

variable (r : Reading)

/-- What a choice is: its name alone, or a name with content. Marked content is none. -/
def choice? : Document → Option (String × Option Document)
  | .scalar s => s.text?.map fun name => (name, none)
  | .object [(name, content)] => some (name, some content)
  | _ => none

/-- The fields of a record, in the order of their names. Other fields do not matter. -/
def record? (names : List String) (d : Document) : Option (List Document) :=
  match d.bare with
  | .list items => if r.positional && items.length = names.length then some items else none
  | d => d.fields?.bind fun fields => names.mapM (Document.field? fields)

/-- Whether a choice that could hold nothing does so in an object. -/
def holdsNull (content : Document) : Bool :=
  match content with
  | .scalar .null => r.positional
  | _ => false

/-- A choice that holds nothing. -/
def name? (d : Document) : Option String :=
  match choice? d with
  | some (name, none) => some name
  | some (name, some content) => if r.holdsNull content then some name else none
  | none => none

/-- The operator of this name. -/
def builtin? (d : Document) : Option Builtin := (r.name? d).bind Builtin.ofConstructorName?

/-- A code name, given the levels left at its place. -/
def code? (levels : Nat) (d : Document) : Option CodeId :=
  if levels = 0 && r.wraps then none else d.text?.map CodeId.mk

/-- Texts in a list, which takes one level. -/
def texts? (levels : Nat) (d : Document) : Option (List String) :=
  if levels = 0 then none else d.items?.bind fun items => items.mapM Document.text?

mutual

/-- The value that a document stands for, given the levels that are left. -/
def value? (levels : Nat) (d : Document) : Option Value :=
  match choice? d with
  | none => none
  | some (name, none) => if name = "Unit" then some .unit else none
  | some (name, some content) =>
    match levels with
    | 0 => none
    | levels + 1 =>
      match name with
      | "Unit" => if r.holdsNull content then some .unit else none
      | "Bool" => content.bool?.map .bool
      | "Number" => content.number?.map .number
      | "Text" => content.text?.map .text
      | "Tuple" =>
        match levels, content.items? with
        | levels + 1, some items => (items.mapM (value? levels)).map .tuple
        | _, _ => none
      | "Function" => function? levels content
      | _ => none
termination_by structural levels

/-- The function that a document stands for. -/
def function? (levels : Nat) (d : Document) : Option Value :=
  match choice? d, levels with
  | some ("Builtin", some content), levels + 1 =>
    if levels = 0 && content.text?.isNone then none else (r.builtin? content).map .builtin
  | some ("Closure", some content), levels + 2 =>
    match r.record? ["code", "params", "body", "env"] content with
    | some [code, params, body, env] => do
      some (.closure (← r.code? levels code) (← texts? levels params) (← expr? levels body)
        (← env? levels env))
    | _ => none
  | _, _ => none
termination_by structural levels

/-- Bindings by name; of two with one name the later counts. -/
def env? (levels : Nat) (d : Document) : Option (List (String × Value)) :=
  match levels, d.fields? with
  | levels + 1, some fields => do
    let pairs ←
      if r.wraps then
        match levels with
        | 0 => none
        | levels + 1 => fields.mapM fun (name, v) => (value? levels v).map fun v => (name, v)
      else fields.mapM fun (name, v) => (value? levels v).map fun v => (name, v)
    some (Entries.insertAll [] pairs)
  | _, _ => none
termination_by structural levels

/-- The program that a document stands for. -/
def expr? (levels : Nat) (d : Document) : Option Expr :=
  match choice? d with
  | none => none
  | some (name, none) => if name = "SelfId" then some .selfId else none
  | some (name, some content) =>
    match levels with
    | 0 => none
    | levels + 1 =>
      match name with
      | "SelfId" => if r.holdsNull content then some .selfId else none
      | "Literal" => (value? levels content).map .literal
      | "VariableRef" => content.text?.map .var
      | "Sense" => content.text?.map .sense
      | "NeighborSense" => content.text?.map .neighborSense
      | "Nbr" => (expr? levels content).map .nbr
      | name => node? levels name content
termination_by structural levels

/-- The node of several parts that a record stands for. -/
def node? (levels : Nat) (name : String) (d : Document) : Option Expr :=
  match levels with
  | 0 => none
  | levels + 1 => do
    match name with
    | "Lambda" =>
      match r.record? ["code", "params", "body"] d with
      | some [code, params, body] =>
        some (.lambda (← r.code? levels code) (← texts? levels params) (← expr? levels body))
      | _ => none
    | "Apply" =>
      match r.record? ["function", "args"] d with
      | some [function, args] => some (.apply (← expr? levels function) (← args? levels args))
      | _ => none
    | "Let" =>
      match r.record? ["name", "value", "body"] d with
      | some [name, value, body] =>
        some (.letIn (← name.text?) (← expr? levels value) (← expr? levels body))
      | _ => none
    | "Branch" =>
      match r.record? ["condition", "then", "otherwise"] d with
      | some [condition, thenSide, elseSide] =>
        some (.branch (← expr? levels condition) (← expr? levels thenSide)
          (← expr? levels elseSide))
      | _ => none
    | "Rep" =>
      match r.record? ["init", "var", "update"] d with
      | some [init, var, update] =>
        some (.rep (← expr? levels init) (← var.text?) (← expr? levels update))
      | _ => none
    | "NeighborFold" =>
      match r.record? ["default", "accumulator", "generator", "include_self"] d with
      | some [default, accumulator, generator, includeSelf] =>
        some (.neighborFold (← expr? levels default) (← expr? levels accumulator)
          (← expr? levels generator) (← includeSelf.bool?))
      | _ => none
    | _ => none
termination_by structural levels

/-- Programs in a list. -/
def args? (levels : Nat) (d : Document) : Option (List Expr) :=
  match levels, d.items? with
  | levels + 1, some items => items.mapM (expr? levels)
  | _, _ => none
termination_by structural levels

end

end Reading

/-- The program that a document stands for in a notation. -/
def Expr.ofDocument? (r : Reading) (d : Document) : Option Expr := r.expr? r.levels d

end FieldCalculus
