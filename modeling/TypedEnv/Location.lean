import TypedEnv.Text.Blank
import TypedEnv.Text.Case
import TypedEnv.Volume

/-!
Where an env file lies: at a path of its own, or in a directory that the surroundings name.
-/

namespace TypedEnv

open TypedEnv.Text

inductive Location where
  | workingDirectory
  | home
  | platform (program : String)
  | path (own : String)
  deriving DecidableEq

def defaultFileName : String := ".env"

def programDirectory (program : String) : String :=
  String.ofList ((splitWhere isBlank program.toList).flatMap lower)

namespace Host

def home? (host : Host) : Option String :=
  ((host.environment.get? "HOME").filter (· != "")).or host.accountHome

/-- The configuration directory: the variable's, if it is absolute, or else one below home. -/
def configuration? (host : Host) : Option String :=
  host.home?.map fun home =>
    ((host.environment.get? "XDG_CONFIG_HOME").filter Path.isAbsolute).getD
      (Path.join home ".config")

end Host

namespace Location

/-- The path of the env file.  The file name counts in a directory only. -/
def resolve (location : Location) (fileName : String) (host : Host) : Option String :=
  match location with
  | workingDirectory => host.workingDirectory.path?.map (Path.join · fileName)
  | home => host.home?.map (Path.join · fileName)
  | platform program =>
    host.configuration?.map fun directory =>
      Path.join (Path.join directory (programDirectory program)) fileName
  | path own => some own

end Location

def Host.readEnvFile (host : Host) (path : String) : Except Error String :=
  match host.readText path with
  | .ok text => .ok text
  | .error .missing => .error (.missingFile path)
  | .error fault => .error (.unreadable path fault)

end TypedEnv
