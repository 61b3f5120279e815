import TypedEnv.Settings

/-!
A settings file to fill in: each setting commented out, with what it means, its variable and its
default.
-/

namespace TypedEnv.Settings

structure TemplateItem where
  name : String
  meaning : List String
  source : String
  default : Option String

def TemplateItem.lines (item : TemplateItem) : List String :=
  item.meaning.map ("# " ++ ·) ++
    ["#", "# Can also be specified via environment variable `" ++ item.source ++ "`."] ++
    match item.default with
    | some value => ["#", "# Default value: " ++ value, "#" ++ item.name ++ " = " ++ value]
    | none => ["#" ++ item.name ++ " ="]

def templateItems : List TemplateItem :=
  [⟨"populate", ["Allow copying parsed values into the process environment."],
      "ENVFIG_POPULATE", some "true"⟩,
    ⟨"delimiter", ["Delimiter used to split `array` values."],
      "ENVFIG_DELIMITER", some "\", \""⟩,
    ⟨"file", ["Path of the env file. Defaults to `.env` in the working directory."],
      "ENVFIG_FILE", none⟩,
    ⟨"schema",
      ["Path of a schema file (`.toml` or `.json`). Without one, every key is",
        "kept as a raw string."],
      "ENVFIG_SCHEMA", none⟩,
    ⟨"strict", ["Reject unknown keys in schema file field rules."],
      "ENVFIG_STRICT", some "true"⟩]

def template : String :=
  Text.join "\n" (templateItems.map fun item =>
    Text.join "" (item.lines.map (· ++ "\n")))

end TypedEnv.Settings
