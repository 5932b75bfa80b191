import FieldCalculus.Json.Read
import FieldCalculus.Program.File
import FieldCalculus.Settings.Value
import FieldCalculus.Toml.Read
import FieldCalculus.Yaml.Read

/-!
Where settings come from: a file in one of several formats, and variables of the
environment.
-/

namespace FieldCalculus.Settings

/-- Variables of the environment, in the order in which they were set. -/
abbrev Variables := List (String × String)

/-- The value that a variable was set to last. -/
def Variables.value? (env : Variables) (name : String) : Option String :=
  env.reverse.lookup name

/-! ## Files -/

/-- The formats of settings. -/
inductive FileFormat where
  | toml | json | yaml
deriving DecidableEq

namespace FileFormat

/-- The format of files with an extension. -/
def ofExtension? (extension : String) : Option FileFormat :=
  match extension with
  | "toml" => some toml
  | "json" => some json
  | "yaml" | "yml" => some yaml
  | _ => none

/-- The document in a text. A YAML text without a document is an empty table. -/
def document? (format : FileFormat) (text : String) : Option Document :=
  match format with
  | toml => Toml.document? text
  | json => Json.document? text
  | yaml => (Yaml.document? text).map fun d => d.getD (.object [])

/-- The entries of the table that a text has to be. -/
def entries? (format : FileFormat) (text : String) : Option (List (String × Document)) :=
  match (format.document? text).bind resolved? with
  | some (.object fields) => some fields
  | _ => none

end FileFormat

/-- The extensions that may be left out in the name of a file. -/
def impliedExtensions : List String := ["toml", "json", "yaml", "yml"]

/-- The entries of a settings file. A file that is not there, or whose format is not
known, has none. -/
def fileEntries? (files : Files) (path : String) : Option (List (String × Document)) :=
  let read? (path text : String) : Option (List (String × Document)) :=
    let extension := (ProgramFormat.fileName? path).bind ProgramFormat.extension?
    match extension.bind FileFormat.ofExtension? with
    | some format => format.entries? text
    | none => some []
  match files path with
  | some text => read? path text
  | none =>
    let found := impliedExtensions.findSome? fun extension =>
      let path := path ++ "." ++ extension
      (files path).map fun text => (path, text)
    match found with
    | some (path, text) => read? path text
    | none => some []

/-! ## Variables -/

/-- What stands between the levels of a variable's name. -/
def separator : String := "__"

/-- The entries that variables make up. A variable counts if its name starts with
`scope` and a separator, in any case; what follows is its key, in lower case. Keys that
settings have are made of ASCII letters, so no other letters need another case. -/
def variableEntries (scope : String) (env : Variables) : List (String × Document) :=
  env.filterMap fun (name, value) =>
    let start := scope.toLower ++ separator
    if name.toLower.startsWith start then
      let key := (name.drop start.length).toString
      some ((key.replace separator ".").toLower, .text value)
    else none

end FieldCalculus.Settings
