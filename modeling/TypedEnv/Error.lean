import TypedEnv.Parsed.Fit
import TypedEnv.Schema.Decode

/-!
Everything that can go wrong, as causes, and the one wording of each; and what a success of a
composed run says of its parts.
-/

namespace TypedEnv

inductive ReadFault where
  | missing
  | notDirectory
  | isDirectory
  | nameTooLong
  | nulInPath
  | notText
  deriving DecidableEq

def ReadFault.message : ReadFault → String
  | missing => "No such file or directory (os error 2)"
  | notDirectory => "Not a directory (os error 20)"
  | isDirectory => "Is a directory (os error 21)"
  | nameTooLong => "File name too long (os error 36)"
  | nulInPath => "file name contained an unexpected NUL byte"
  | notText => "stream did not contain valid UTF-8"

inductive Limit where
  | minimum
  | maximum
  deriving DecidableEq

def Limit.word : Limit → String
  | minimum => "minimum"
  | maximum => "maximum"

inductive Measure where
  | value
  | length
  deriving DecidableEq

def Measure.word : Measure → String
  | value => "value"
  | length => "length"

inductive SettingsFault where
  | notTruth (source field text : String)
  | noExtension (path : String)
  | unknownExtension (path : String)
  | unreadable (path : String)
  | malformed (path : String)
  deriving DecidableEq

def SettingsFault.message : SettingsFault → String
  | notTruth source field text =>
    "failed to deserialize value `Settings::" ++ field ++ "` from environment variable `" ++
      source ++ "`: invalid value for bool: '" ++ text ++ "'"
  | noExtension path =>
    "cannot guess configuration file format due to missing file extension in '" ++ path ++ "'"
  | unknownExtension path => "unknown configuration file format/extension: '" ++ path ++ "'"
  | unreadable path => "IO error occured while reading configuration file '" ++ path ++ "'"
  | malformed path => "failed to deserialize configuration from file '" ++ path ++ "'"

/-- A key that no rule knows, with the line it stands on, or zero if the line was not found. -/
structure UnknownKey where
  key : String
  line : Nat
  deriving DecidableEq

inductive Error where
  | missingFile (path : String)
  | unreadable (path : String) (fault : ReadFault)
  | unknownReader (key typeId : String)
  | notAnOption (key value : String) (options : List Document)
  | outOfBounds (key value : String) (bound : Binary64) (limit : Limit) (measure : Measure)
  | populateDisabled
  | unknownSchemaKeys (path : String) (keys : List UnknownKey)
  | malformedTables (path : String)
  | malformedJson (path : String) (fault : Json.Located)
  | invalidSchema (field : String) (fault : SpecFault)
  | settings (fault : SettingsFault)
  | mismatch (fault : Mismatch)
  | noLocation

def UnknownKey.message (path : String) (unknown : UnknownKey) : String :=
  "Unknown key '" ++ unknown.key ++ "' in schema " ++ path ++ " (line " ++
    toString unknown.line ++ ")"

def boundText (bound : Binary64) : String := String.ofList (Notation64.bound.text bound)

def Error.message : Error → String
  | missingFile path => "Env file not found: " ++ path
  | unreadable path fault => "Failed to read " ++ path ++ ": " ++ fault.message
  | unknownReader key typeId =>
    "No reader found for type '" ++ typeId ++ "' (field '" ++ key ++ "')"
  | notAnOption key value options =>
    "Value '" ++ value ++ "' for '" ++ key ++ "' is not among the allowed options: " ++
      Text.join ", " (options.map Document.display)
  | outOfBounds key value bound limit measure =>
    "Invalid " ++ measure.word ++ " for '" ++ key ++ "': " ++ value ++ " violates the " ++
      limit.word ++ " of " ++ boundText bound
  | populateDisabled => "Populate is disabled; enable it with .populate(true) on the builder"
  | unknownSchemaKeys _ _ => "Unknown keys in schema file"
  | malformedTables path => "Failed to parse " ++ path
  | malformedJson path fault => "Failed to parse " ++ path ++ ": " ++ fault.message
  | invalidSchema field fault => "Invalid schema entry for '" ++ field ++ "': " ++ fault.message
  | settings fault => "Settings error: " ++ fault.message
  | mismatch fault => "Failed to deserialize parsed values: " ++ fault.message
  | noLocation =>
    "Could not determine the env file location (no home or config directory)"

variable {ε α β : Type} {result : Except ε α}

theorem exists_of_bind_eq_ok {f : α → Except ε β} {b : β} (h : result >>= f = .ok b) :
    ∃ a, result = .ok a ∧ f a = .ok b := by
  cases result with
  | error e => cases h
  | ok a => exact ⟨a, rfl, h⟩

theorem exists_of_map_eq_ok {f : α → β} {b : β} (h : result.map f = .ok b) :
    ∃ a, result = .ok a ∧ f a = b := by
  cases result with
  | error e => cases h
  | ok a => exact ⟨a, rfl, Except.ok.inj h⟩

theorem isOk_map (result : Except ε α) (f : α → β) : (result.map f).isOk = result.isOk := by
  cases result <;> rfl

theorem eq_ok_of_toOption {a : α} (h : result.toOption = some a) : result = .ok a := by
  cases result with
  | error e => cases h
  | ok b => exact congrArg Except.ok (Option.some.inj h)

theorem toOption_map (result : Except ε α) (f : α → β) :
    (result.map f).toOption = result.toOption.map f := by
  cases result <;> rfl

theorem toOption_bind (result : Except ε α) (f : α → Except ε β) :
    (result >>= f).toOption = result.toOption.bind fun value => (f value).toOption := by
  cases result <;> rfl

end TypedEnv
