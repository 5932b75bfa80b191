import FieldCalculus.Network.Pacing
import FieldCalculus.Program.Format

/-!
Programs in files, and what can go wrong with the settings of a node.
-/

namespace FieldCalculus

/-- The texts of the files that there are, by their paths. -/
abbrev Files := String → Option String

/-- What is wrong with settings or with the program they ask for. -/
inductive SettingsFault where
  /-- The settings cannot be read, or a value among them is not of its type. -/
  | malformed
  | missingProgram (path : String)
  | malformedProgram (path : String) (format : ProgramFormat)
  | unknownProgram (name : String)
  | pacing (fault : PacingFault)
deriving DecidableEq

/-- The fault in words, as far as the words are not those of a file system or a format. -/
def SettingsFault.message : SettingsFault → String
  | malformed => "configuration"
  | missingProgram path => "reading program file " ++ path
  | malformedProgram path _ => "parsing program file " ++ path
  | unknownProgram name => "unknown program `" ++ name ++ "`"
  | pacing fault => fault.message

/-- The program in a file. -/
def Files.program (files : Files) (path : String) : Except SettingsFault Expr :=
  match files path with
  | none => .error (.missingProgram path)
  | some text =>
    match (ProgramFormat.ofPath path).parse? text with
    | some program => .ok program
    | none => .error (.malformedProgram path (.ofPath path))

end FieldCalculus
