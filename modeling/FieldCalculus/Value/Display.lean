import FieldCalculus.Expr
import FieldCalculus.Number.Layout
import FieldCalculus.Text.Quoted

/-!
Values as text for people. Functions show what identifies them and not what they do.
-/

namespace FieldCalculus.Value

mutual

/-- A value as text. -/
def display : Value → String
  | unit => "()"
  | bool b => if b then "true" else "false"
  | number n => n.text .display
  | text s => Text.quoted s
  | tuple items => "(" ++ displayItems items ++ ")"
  | builtin b => "<builtin " ++ b.name ++ ">"
  | closure code _ _ _ => "<closure " ++ code.text ++ ">"

/-- The items of a tuple with commas between them. -/
def displayItems : List Value → String
  | [] => ""
  | [v] => display v
  | v :: rest => display v ++ ", " ++ displayItems rest

end

end FieldCalculus.Value
