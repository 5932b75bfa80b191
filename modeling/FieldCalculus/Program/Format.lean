import FieldCalculus.Json.Print
import FieldCalculus.Json.Read
import FieldCalculus.Program.Document
import FieldCalculus.Yaml.Print
import FieldCalculus.Yaml.Read

/-!
Programs as texts. YAML keeps all numbers; JSON has no text for those that are not
finite, so programs in JSON have to do without them.
-/

namespace FieldCalculus

/-- The formats of program texts. -/
inductive ProgramFormat where
  | yaml | json
deriving DecidableEq, Inhabited

namespace ProgramFormat

/-- How lenient a format is. -/
def reading : ProgramFormat → Reading
  | yaml => ⟨128, false, true⟩
  | json => ⟨127, true, false⟩

/-- The text of a program. -/
def render (format : ProgramFormat) (program : Expr) : String :=
  match format with
  | yaml => Yaml.render program.document
  | json => Json.pretty program.document

/-- The document in a text. -/
def document? (format : ProgramFormat) (text : String) : Option Document :=
  match format with
  | yaml => (Yaml.document? text).join
  | json => Json.document? text

/-- The program in a text. -/
def parse? (format : ProgramFormat) (text : String) : Option Expr :=
  (format.document? text).bind (Expr.ofDocument? format.reading)

/-- What follows the last point of a file name, unless that point starts the name. -/
def extension? (name : String) : Option String :=
  match name.splitOn "." with
  | [] | [_] => none
  | [first, last] => if first.isEmpty then none else some last
  | parts => parts.getLast?

/-- The last component of a path that is a name. -/
def fileName? (path : String) : Option String :=
  let components := (path.splitOn "/").filter fun c => c != "" && c != "."
  components.getLast?.filter fun c => c != ".."

/-- The format of a file: JSON by its extension in any case, otherwise YAML. -/
def ofPath (path : String) : ProgramFormat :=
  match (fileName? path).bind extension? with
  | some extension => if extension.toLower = "json" then json else yaml
  | none => yaml

end ProgramFormat

end FieldCalculus
