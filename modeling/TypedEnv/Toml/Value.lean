import TypedEnv.Document

/-!
Values of TOML texts.  Dates and times are kept as their canonical text.  The members of a table
stand in the order in which they are written, each under a key of its own.
-/

namespace TypedEnv.Toml

inductive Value where
  | string (value : String)
  | integer (value : Int)
  | float (value : Binary64)
  | boolean (value : Bool)
  | datetime (text : String)
  | array (items : List Value)
  | table (members : List (String × Value))

namespace Value

mutual

/-- The document of a value: dates and times are strings, numbers that are not finite null. -/
def toDocument : Value → Document
  | string s => .string s
  | integer n => .int n
  | float x => .ofBinary64 x
  | boolean b => .bool b
  | datetime text => .string text
  | array items => .array (itemsToDocuments items)
  | table members => .object (membersToDocuments members)

def itemsToDocuments : List Value → List Document
  | [] => []
  | item :: items => toDocument item :: itemsToDocuments items

def membersToDocuments : List (String × Value) → List (String × Document)
  | [] => []
  | (key, value) :: members => (key, toDocument value) :: membersToDocuments members

end

end Value

end TypedEnv.Toml
