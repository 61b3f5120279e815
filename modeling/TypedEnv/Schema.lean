import TypedEnv.Document

/-!
Schemas say which keys an env file may assign and what their values have to be.  A field is either
a bare type id or a rule, which adds a fallback for rejected values, a list of allowed options and
bounds.  A schema without fields asks for nothing.
-/

namespace TypedEnv

structure FieldRule where
  typeId : String
  /-- Stands in for a value that the type rejects; null does when there is none. -/
  fallback : Option Document
  oneOf : Option (List Document)
  min : Option Binary64
  max : Option Binary64

def FieldRule.ofType (typeId : String) : FieldRule := ⟨typeId, none, none, none, none⟩

inductive FieldSpec where
  | type (id : String)
  | rule (own : FieldRule)

def FieldSpec.typeId : FieldSpec → String
  | type typeId => typeId
  | rule own => own.typeId

structure Schema where
  fields : Dict FieldSpec

namespace Schema

def empty : Schema := ⟨.empty⟩

def field (schema : Schema) (name : String) (spec : FieldSpec) : Schema :=
  ⟨schema.fields.insert name spec⟩

def ofList (fields : List (String × FieldSpec)) : Schema := ⟨.ofList fields⟩

def get? (schema : Schema) (name : String) : Option FieldSpec := schema.fields.get? name

def size (schema : Schema) : Nat := schema.fields.size

def isEmpty (schema : Schema) : Bool := schema.fields.isEmpty

@[simp] theorem get?_field (schema : Schema) (name key : String) (spec : FieldSpec) :
    (schema.field name spec).get? key = if key = name then some spec else schema.get? key :=
  Dict.get?_insert schema.fields name key spec

end Schema

def boundDocument (bound : Binary64) : Document := .ofBinary64 bound

/-- The settings of a rule under their names; what is not set is left out. -/
def FieldRule.toDocument (rule : FieldRule) : Document :=
  .ofMembers (("type", .string rule.typeId) ::
    (rule.fallback.map (("default", ·))).toList ++
    (rule.oneOf.map fun options => ("oneOf", .array options)).toList ++
    (rule.min.map fun bound => ("min", boundDocument bound)).toList ++
    (rule.max.map fun bound => ("max", boundDocument bound)).toList)

def FieldSpec.toDocument : FieldSpec → Document
  | type typeId => .string typeId
  | rule own => own.toDocument

def Schema.toDocument (schema : Schema) : Document :=
  .object (schema.fields.entries.map fun entry => (entry.1, entry.2.toDocument))

end TypedEnv
