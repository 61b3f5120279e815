import TypedEnv.Json.Parser
import TypedEnv.Parsed

/-!
Fitting documents to the types of a program.  A `TypeShape` describes a type; a document that fits
it is returned in the form the type gives it, and one that does not is refused with the first
mismatch.  Members are met in key order, missing ones after all that are there.
-/

namespace TypedEnv

mutual

inductive TypeShape where
  | natural16
  | integer64
  | text
  | truth
  | list (item : TypeShape)
  | optional (inner : TypeShape)
  | table (value : TypeShape)
  | record (fields : List FieldShape)

inductive FieldShape where
  | mk (name : String) (absent : Option Document) (type : TypeShape)

end

inductive Mismatch where
  | wrongType (found : Document) (expected : String)
  | outOfRange (found : Document) (expected : String)
  | missing (name : String)

def Mismatch.message : Mismatch → String
  | wrongType found expected => "invalid type: " ++ Json.found found ++ ", expected " ++ expected
  | outOfRange found expected => "invalid value: " ++ Json.found found ++ ", expected " ++ expected
  | missing name => "missing field `" ++ name ++ "`"

namespace TypeShape

def fitInt (least greatest : Int) (expected : String) : Document → Except Mismatch Document
  | .int n =>
    if least ≤ n ∧ n ≤ greatest then .ok (.int n) else .error (.outOfRange (.int n) expected)
  | other => .error (.wrongType other expected)

def complete (found : List (String × Document)) :
    List FieldShape → Except Mismatch (List (String × Document))
  | [] => .ok []
  | .mk name absent _ :: fields =>
    match valueOf? name found, absent with
    | some value, _ => (complete found fields).map ((name, value) :: ·)
    | none, some value => (complete found fields).map ((name, value) :: ·)
    | none, none => .error (.missing name)

/-- Fits the members in turn, each by the type that `fitOne` has for its key; members without one
are left out. -/
def fitMembers (fitOne : String → Document → Option (Except Mismatch Document)) :
    List (String × Document) → Except Mismatch (List (String × Document))
  | [] => .ok []
  | (key, document) :: members =>
    match fitOne key document with
    | none => fitMembers fitOne members
    | some result => do
      let fitted ← result
      let rest ← fitMembers fitOne members
      return (key, fitted) :: rest

mutual

def fit : TypeShape → Document → Except Mismatch Document
  | natural16, document => fitInt 0 65535 "u16" document
  | integer64, document => fitInt leastInt64 greatestInt64 "i64" document
  | text, .string s => .ok (.string s)
  | text, other => .error (.wrongType other "a string")
  | truth, .bool b => .ok (.bool b)
  | truth, other => .error (.wrongType other "a boolean")
  | list item, .array items => (items.mapM (fit item)).map .array
  | list _, other => .error (.wrongType other "a sequence")
  | optional _, .null => .ok .null
  | optional inner, document => fit inner document
  | table value, .object members =>
    (fitMembers (fun _ document => some (fit value document)) members).map .object
  | table _, other => .error (.wrongType other "a map")
  | record fields, .object members => do
    let found ← fitMembers (fitField fields) members
    let found ← complete found fields
    return .ofMembers found
  | record _, other => .error (.wrongType other "a map")

def fitField : List FieldShape → String → Document → Option (Except Mismatch Document)
  | [], _, _ => none
  | .mk name _ type :: fields, key, document =>
    if key = name then some (fit type document) else fitField fields key document

end

end TypeShape

def Parsed.fit (shape : TypeShape) (parsed : Parsed) : Except Mismatch Document :=
  shape.fit parsed.toDocument

end TypedEnv
