import TypedEnv.Schema.Json
import TypedEnv.Toml.Canonical
import TypedEnv.Toml.Parser
import TypedEnv.Volume

/-!
Schema files in TOML, and the choice between the two formats of schema files.
-/

namespace TypedEnv

def Toml.Value.found : Toml.Value → String
  | .string s => "string " ++ Text.quoted s
  | .integer n => "integer `" ++ String.ofList (Json.intText n) ++ "`"
  | .float x => "floating point `" ++ String.ofList (Notation64.entry.text x) ++ "`"
  | .boolean b => "boolean `" ++ toString b ++ "`"
  | .datetime text => "string " ++ Text.quoted text
  | .array _ => "sequence"
  | .table _ => "map"

def Toml.Value.sight (value : Toml.Value) : Sight where
  shape := match value with
    | .string s => .text s
    | .integer n => .number (.ofInt n)
    | .float x => .number x
    | .boolean _ => .other
    | .datetime text => .text text
    | .array items => .list (Toml.Value.itemsToDocuments items)
    | .table _ => .other
  document := value.toDocument
  found := value.found

def Toml.Value.fileEntry : Toml.Value → FileEntry
  | .string s => .name s
  | .table members => .table (members.map fun member => (member.1, member.2.sight))
  | .integer _ => .other "integer"
  | .float _ => .other "float"
  | .boolean _ => .other "boolean"
  | .datetime _ => .other "datetime"
  | .array _ => .other "array"

namespace Schema

def ofToml (text path : String) (strict : Bool) : Except Error Schema :=
  match Toml.parse .initial text.toList >>= Toml.canonicalText? with
  | none => .error (.malformedTables path)
  | some members =>
    ofFile strict path (KeyLine.inTables text)
      (members.map fun member => (member.1, member.2.fileEntry))

/-- The path names a JSON file, in either case of letters; all other schema files are TOML. -/
def isJsonPath (path : String) : Bool :=
  (Path.extension? path).any fun extension =>
    String.ofList (extension.toList.map Char.toLower) == "json"

def load (host : Host) (path : String) (strict : Bool) : Except Error Schema :=
  match host.readText path with
  | .error fault => .error (.unreadable path fault)
  | .ok text => if isJsonPath path then ofJson text path strict else ofToml text path strict

end Schema

end TypedEnv
