import TypedEnv.Error

/-!
Populating an environment with parsed values.  A variable that is set is never overwritten, and
null is not a value that a variable could have.
-/

namespace TypedEnv

def renderValue (delimiter : String) : Document → Option String
  | .null => none
  | .string s => some s
  | .array items => some (Text.join delimiter (items.map Document.display))
  | other => some other.display

/-- What an environment is: a map of its own, or the one of the running process, which refuses
some names and values. -/
inductive EnvironmentKind where
  | map
  | process
  deriving DecidableEq

structure Environment where
  kind : EnvironmentKind
  values : Dict String

namespace Environment

/-- The variable is set.  A process finds a variable by the text `NAME=` in front of its value. -/
def isSet (environment : Environment) (name : String) : Bool :=
  match environment.kind with
  | .map => environment.values.contains name
  | .process =>
    name != "" && environment.values.entries.any fun (key, value) =>
      (name ++ "=").toList.isPrefixOf (key ++ "=" ++ value).toList

def admits (environment : Environment) (name value : String) : Bool :=
  match environment.kind with
  | .map => true
  | .process =>
    name != "" && !name.toList.contains '=' && !name.toList.contains '\x00' &&
      !value.toList.contains '\x00'

def set (environment : Environment) (name value : String) : Environment :=
  { environment with values := environment.values.insert name value }

end Environment

structure PopulateReport where
  written : List String
  skipped : List String
  deriving DecidableEq

namespace PopulateReport

def empty : PopulateReport := ⟨[], []⟩

def display (report : PopulateReport) : String :=
  "Populated " ++ toString report.written.length ++ " variable(s), skipped " ++
    toString report.skipped.length

end PopulateReport

/-- The end of a run: complete with a report, or broken off at a variable that the environment
refuses, with the variables before it written. -/
inductive PopulateEnd where
  | complete (environment : Environment) (report : PopulateReport)
  | refused (environment : Environment)

namespace PopulateEnd

def environment : PopulateEnd → Environment
  | complete environment _ => environment
  | refused environment => environment

def note (written : Bool) (key : String) : PopulateEnd → PopulateEnd
  | complete environment report =>
    complete environment (if written then { report with written := key :: report.written }
      else { report with skipped := key :: report.skipped })
  | refused environment => refused environment

end PopulateEnd

def populateEntries (delimiter : String) : List (String × Document) → Environment → PopulateEnd
  | [], environment => .complete environment .empty
  | (key, value) :: entries, environment =>
    if environment.isSet key then (populateEntries delimiter entries environment).note false key
    else match renderValue delimiter value with
      | none => (populateEntries delimiter entries environment).note false key
      | some text =>
        if environment.admits key text then
          (populateEntries delimiter entries (environment.set key text)).note true key
        else .refused environment

def Parsed.populate (parsed : Parsed) (delimiter : String) (environment : Environment) :
    PopulateEnd :=
  populateEntries delimiter parsed.entries environment

end TypedEnv
