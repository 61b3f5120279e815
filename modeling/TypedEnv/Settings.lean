import TypedEnv.Schema.Toml

/-!
Settings of a parser that can be written down.  They come in layers: environment variables over a
TOML file over defaults, each setting on its own.
-/

namespace TypedEnv

def defaultDelimiter : String := ", "

structure Settings where
  populate : Bool
  delimiter : String
  file : Option String
  schema : Option String
  strict : Bool
  deriving DecidableEq

structure SettingsLayer where
  populate : Option Bool
  delimiter : Option String
  file : Option String
  schema : Option String
  strict : Option Bool
  deriving DecidableEq

namespace SettingsLayer

def empty : SettingsLayer := ⟨none, none, none, none, none⟩

def orElse (upper lower : SettingsLayer) : SettingsLayer where
  populate := upper.populate.or lower.populate
  delimiter := upper.delimiter.or lower.delimiter
  file := upper.file.or lower.file
  schema := upper.schema.or lower.schema
  strict := upper.strict.or lower.strict

@[simp] theorem empty_orElse (layer : SettingsLayer) :
    SettingsLayer.empty.orElse layer = layer := by
  cases layer
  simp [orElse, empty]

def finish (layer : SettingsLayer) : Settings where
  populate := layer.populate.getD true
  delimiter := layer.delimiter.getD defaultDelimiter
  file := layer.file
  schema := layer.schema
  strict := layer.strict.getD true

def truth? (text : List Char) : Option Bool :=
  let word := String.ofList (text.map Char.toLower)
  if word ∈ ["1", "true", "yes"] then some true
  else if word ∈ ["0", "false", "no"] then some false
  else none

/-- The truth value of a variable; an empty variable counts as unset. -/
def truthOf (environment : Dict String) (source field : String) :
    Except SettingsFault (Option Bool) :=
  match environment.get? source with
  | none => .ok none
  | some "" => .ok none
  | some raw =>
    let text := Text.trim raw.toList
    match truth? text with
    | some value => .ok (some value)
    | none => .error (.notTruth source field (String.ofList text))

def ofVariables (environment : Dict String) : Except SettingsFault SettingsLayer := do
  let populate ← truthOf environment "ENVFIG_POPULATE" "populate"
  let strict ← truthOf environment "ENVFIG_STRICT" "strict"
  return ⟨populate, environment.get? "ENVFIG_DELIMITER", environment.get? "ENVFIG_FILE",
    environment.get? "ENVFIG_SCHEMA", strict⟩

/-- A setting under a name, read by its type; `none` when it has a value of another type. -/
def member? {α : Type} (read : Toml.Value → Option α) (name : String)
    (members : List (String × Toml.Value)) : Option (Option α) :=
  match valueOf? name members with
  | none => some none
  | some value => (read value).map some

def text? : Toml.Value → Option String
  | .string s => some s
  | _ => none

def bool? : Toml.Value → Option Bool
  | .boolean b => some b
  | _ => none

def ofTable (members : List (String × Toml.Value)) : Option SettingsLayer := do
  let populate ← member? bool? "populate" members
  let delimiter ← member? text? "delimiter" members
  let file ← member? text? "file" members
  let schema ← member? text? "schema" members
  let strict ← member? bool? "strict" members
  return ⟨populate, delimiter, file, schema, strict⟩

/-- The settings in a file, which has to be named as TOML; one that is not there sets nothing. -/
def ofFile (host : Host) (path : String) : Except SettingsFault SettingsLayer :=
  match Path.extension? path with
  | none => .error (.noExtension path)
  | some "toml" =>
    match host.readText path with
    | .error .missing => .ok empty
    | .error .notText => .error (.malformed path)
    | .error _ => .error (.unreadable path)
    | .ok text =>
      match Toml.parse .revised text.toList >>= ofTable with
      | some layer => .ok layer
      | none => .error (.malformed path)
  | some _ => .error (.unknownExtension path)

end SettingsLayer

namespace Settings

def default : Settings := SettingsLayer.empty.finish

def load (host : Host) (path : Option String) : Except Error Settings :=
  Except.mapError Error.settings do
    let upper ← SettingsLayer.ofVariables host.environment
    let lower ← match path with
      | some path => SettingsLayer.ofFile host path
      | none => pure .empty
    return (upper.orElse lower).finish

def ofFile (host : Host) (path : String) : Except Error Settings :=
  Except.mapError Error.settings ((SettingsLayer.ofFile host path).map SettingsLayer.finish)

end Settings

end TypedEnv
