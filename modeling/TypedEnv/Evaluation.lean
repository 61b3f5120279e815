import TypedEnv.Assignment
import TypedEnv.Error
import TypedEnv.Registry

/-!
Evaluation of assignments against a schema.

Each assignment has one of three outcomes: its value is stored, it is passed over, or it ends the
evaluation.  A later value takes the place of an earlier one with the same key.  Looking readers
up may store unions in the registry, so the registry goes along.
-/

namespace TypedEnv

inductive Outcome where
  | store (value : Document)
  | skip
  | fatal (error : Error)

/-- An option allows a value: a string has to be the raw text itself, any other option the value
that the reader made of it. -/
def allows (raw : String) (value : Document) : Document → Bool
  | .string s => s == raw
  | option => option.same value

namespace FieldRule

def checkOptions (rule : FieldRule) (key raw : String) (value : Document) : Option Error :=
  match rule.oneOf with
  | none => none
  | some options =>
    if options.any (allows raw value) then none else some (.notAnOption key raw options)

/-- What bounds are compared with: for the type `int` the raw text as a number, for the type
`string` its length in characters.  Other types are not bounded. -/
def measured? (rule : FieldRule) (raw : String) : Option (Measure × Binary64) :=
  if rule.typeId = "int" then some (.value, (rawFinite? raw).getD .nan)
  else if rule.typeId = "string" then some (.length, .ofInt raw.length)
  else none

def violated? (rule : FieldRule) (amount : Binary64) : Option (Limit × Binary64) :=
  match rule.min.filter amount.below, rule.max.filter (·.below amount) with
  | some bound, _ => some (.minimum, bound)
  | none, some bound => some (.maximum, bound)
  | none, none => none

def checkBounds (rule : FieldRule) (key raw : String) (value : Document) : Option Error := do
  let (measure, amount) ← rule.measured? raw
  let (limit, bound) ← rule.violated? amount
  return .outOfBounds key value.display bound limit measure

def broken? (rule : FieldRule) (key raw : String) (value : Document) : Option Error :=
  (rule.checkOptions key raw value).or (rule.checkBounds key raw value)

end FieldRule

namespace FieldSpec

/-- The outcome of a text that the type rejects.  Constraints are not looked at. -/
def rejected : FieldSpec → Outcome
  | type _ => .skip
  | rule own => .store (own.fallback.getD .null)

def accepted (spec : FieldSpec) (key raw : String) (value : Document) : Outcome :=
  match spec with
  | type _ => .store value
  | rule own =>
    match own.broken? key raw value with
    | some error => .fatal error
    | none => .store value

def judge (spec : FieldSpec) (key raw : String) (registry : Registry) : Outcome × Registry :=
  match registry.resolve spec.typeId with
  | (none, registry) => (.fatal (.unknownReader key spec.typeId), registry)
  | (some entry, registry) =>
    match entry.reader.accepts raw registry with
    | (false, registry) => (spec.rejected, registry)
    | (true, registry) =>
      match entry.reader.parse raw registry with
      | (value, registry) => (spec.accepted key raw value, registry)

end FieldSpec

namespace Schema

/-- The outcome of an assignment.  Without a schema the raw text is stored. -/
def judge (schema : Schema) (assignment : Assignment) (registry : Registry) :
    Outcome × Registry :=
  if schema.isEmpty then (.store (.string assignment.value), registry)
  else match schema.get? assignment.key with
    | none => (.skip, registry)
    | some spec => spec.judge assignment.key assignment.value registry

def evaluateFrom (schema : Schema) (parsed : Parsed) :
    List Assignment → Registry → Except Error Parsed × Registry
  | [], registry => (.ok parsed, registry)
  | assignment :: rest, registry =>
    match schema.judge assignment registry with
    | (.store value, registry) =>
      schema.evaluateFrom (parsed.insert assignment.key value) rest registry
    | (.skip, registry) => schema.evaluateFrom parsed rest registry
    | (.fatal error, registry) => (.error error, registry)

def evaluate (schema : Schema) (assignments : List Assignment) (registry : Registry) :
    Except Error Parsed × Registry :=
  schema.evaluateFrom .empty assignments registry

end Schema

end TypedEnv
