import TypedEnv.Schema

/-!
Schemas from the entries of a schema file, whatever format the file is written in.

A format shows each value as a `Sight`: what the value can serve as, the document it stands for,
and what it is called in messages.  The members of a table are taken in key order.  A member with
an unknown name is passed over and noted; the first member whose value does not fit ends the
reading, and the members after it are not looked at.
-/

namespace TypedEnv

inductive Shape where
  | absent
  | text (text : String)
  | number (value : Binary64)
  | list (items : List Document)
  | other

structure Sight where
  shape : Shape
  document : Document
  found : String

inductive FileEntry where
  | name (typeId : String)
  | table (members : List (String × Sight))
  | other (word : String)

inductive SpecFault where
  | wrongType (found expected : String)
  | missingType
  | repeatedOneOf
  | notASpec (word : String)
  deriving DecidableEq

def SpecFault.message : SpecFault → String
  | wrongType found expected => "invalid type: " ++ found ++ ", expected " ++ expected
  | missingType => "missing field `type`"
  | repeatedOneOf => "duplicate field `oneOf`"
  | notASpec word => "expected a type name or a table, found " ++ word

/-- The settings of a rule met so far.  The list of options counts as met also when its value was
absent. -/
structure Draft where
  typeId : Option String
  fallback : Option Document
  oneOf : Option (Option (List Document))
  min : Option Binary64
  max : Option Binary64

namespace Draft

def empty : Draft := ⟨none, none, none, none, none⟩

def text (sight : Sight) : Except SpecFault String :=
  match sight.shape with
  | .text text => .ok text
  | _ => .error (.wrongType sight.found "a string")

def bound (sight : Sight) : Except SpecFault (Option Binary64) :=
  match sight.shape with
  | .absent => .ok none
  | .number value => .ok (some value)
  | _ => .error (.wrongType sight.found "f64")

def options (sight : Sight) : Except SpecFault (Option (List Document)) :=
  match sight.shape with
  | .absent => .ok none
  | .list items => .ok (some items)
  | _ => .error (.wrongType sight.found "a sequence")

def fallbackOf (sight : Sight) : Option Document :=
  match sight.shape with
  | .absent => none
  | _ => some sight.document

def isKnown (name : String) : Bool :=
  name ∈ ["type", "default", "oneOf", "one_of", "min", "max"]

def take (draft : Draft) (name : String) (sight : Sight) : Except SpecFault Draft :=
  match name with
  | "type" => (text sight).map fun typeId => { draft with typeId := some typeId }
  | "default" => .ok { draft with fallback := fallbackOf sight }
  | "min" => (bound sight).map fun min => { draft with min }
  | "max" => (bound sight).map fun max => { draft with max }
  | _ =>
    if draft.oneOf.isSome then .error .repeatedOneOf
    else (options sight).map fun oneOf => { draft with oneOf := some oneOf }

/-- Takes the members in turn; returns the unknown names met, and the draft or what ended it. -/
def takeAll (draft : Draft) : List (String × Sight) → List String × Except SpecFault Draft
  | [] => ([], .ok draft)
  | (name, sight) :: members =>
    if isKnown name then
      match draft.take name sight with
      | .ok draft => draft.takeAll members
      | .error fault => ([], .error fault)
    else
      let (unknown, result) := draft.takeAll members
      (name :: unknown, result)

def finish (draft : Draft) : Except SpecFault FieldRule :=
  match draft.typeId with
  | some typeId => .ok ⟨typeId, draft.fallback, draft.oneOf.join, draft.min, draft.max⟩
  | none => .error .missingType

end Draft

def FieldRule.ofMembers (members : List (String × Sight)) : Except SpecFault FieldRule :=
  (Draft.empty.takeAll members).2 >>= Draft.finish

def FieldRule.unknownNames (members : List (String × Sight)) : List String :=
  (Draft.empty.takeAll members).1

def FieldSpec.ofEntry : FileEntry → Except SpecFault FieldSpec
  | .name typeId => .ok (.type typeId)
  | .table members => (FieldRule.ofMembers members).map .rule
  | .other word => .error (.notASpec word)

def Schema.ofEntries : List (String × FileEntry) → Schema → Except (String × SpecFault) Schema
  | [], schema => .ok schema
  | (name, entry) :: entries, schema =>
    match FieldSpec.ofEntry entry with
    | .ok spec => Schema.ofEntries entries (schema.field name spec)
    | .error fault => .error (name, fault)

def Schema.unknownKeys (entries : List (String × FileEntry)) : List String :=
  entries.flatMap fun (field, entry) =>
    match entry with
    | .table members => (FieldRule.unknownNames members).map fun name => field ++ "." ++ name
    | _ => []

end TypedEnv
