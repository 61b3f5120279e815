import TypedEnv.Error
import TypedEnv.Json.Parser
import TypedEnv.Schema.KeyLine

/-!
Schema files in JSON, and schemas out of documents.
-/

namespace TypedEnv

def Document.sight (document : Document) : Sight where
  shape := match document with
    | .null => .absent
    | .string s => .text s
    | .int n => .number (.ofInt n)
    | .float x => .number x
    | .array items => .list items
    | .bool _ | .object _ => .other
  document := document
  found := Json.found document

def Document.fileEntry : Document → FileEntry
  | .string s => .name s
  | .object members => .table (members.map fun member => (member.1, member.2.sight))
  | .null => .other "null"
  | .bool _ => .other "boolean"
  | .int _ | .float _ => .other "number"
  | .array _ => .other "array"

namespace Schema

/-- The schema of a file's entries.  A strict reading first refuses the file for all its unknown
keys, each with the line that `lineOf` finds for it. -/
def ofFile (strict : Bool) (path : String) (lineOf : String → Nat)
    (entries : List (String × FileEntry)) : Except Error Schema :=
  match if strict then unknownKeys entries else [] with
  | [] => (ofEntries entries .empty).mapError fun fault => .invalidSchema fault.1 fault.2
  | keys => .error (.unknownSchemaKeys path (keys.map fun key => ⟨key, lineOf key⟩))

def ofJson (text path : String) (strict : Bool) : Except Error Schema :=
  match Json.parseObject text.toList with
  | .error fault => .error (.malformedJson path (fault.locate text.toList))
  | .ok members =>
    ofFile strict path (KeyLine.inObjects text)
      (members.map fun member => (member.1, member.2.fileEntry))

end Schema

inductive DocumentFault where
  | notObject (found : Document)
  | notASpec

def DocumentFault.message : DocumentFault → String
  | notObject found => "invalid type: " ++ Json.found found ++ ", expected a map"
  | notASpec => "data did not match any variant of untagged enum FieldSpec"

/-- A rule is an object of its settings, or their list in a fixed order, which may end early. -/
def FieldRule.ofDocument? : Document → Option FieldRule
  | .object members =>
    (FieldRule.ofMembers (members.map fun member => (member.1, member.2.sight))).toOption
  | .array items =>
    if 5 < items.length then none
    else (FieldRule.ofMembers (["type", "default", "oneOf", "min", "max"].zip
      (items.map Document.sight))).toOption
  | _ => none

def FieldSpec.ofDocument? : Document → Option FieldSpec
  | .string s => some (.type s)
  | document => (FieldRule.ofDocument? document).map .rule

def Schema.ofMembers : List (String × Document) → Schema → Except DocumentFault Schema
  | [], schema => .ok schema
  | (name, document) :: members, schema =>
    match FieldSpec.ofDocument? document with
    | some spec => Schema.ofMembers members (schema.field name spec)
    | none => .error .notASpec

def Schema.ofDocument : Document → Except DocumentFault Schema
  | .object members => Schema.ofMembers members .empty
  | other => .error (.notObject other)

end TypedEnv
