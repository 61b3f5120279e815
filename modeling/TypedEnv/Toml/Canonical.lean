import TypedEnv.Toml.Numeral

/-!
Values that no longer show how they were written: the members of tables are in key order, and a
table that stands for a date is that date.
-/

namespace TypedEnv.Toml

/-- The first key of a table that stands for a date; its value is the text of the date. -/
def dateKey : String := "$__toml_private_datetime"

def dateOfText? (text : String) : Option Value :=
  match datetime? .initial text.toList with
  | some (value, []) => some value
  | _ => none

namespace Value

def dateMember? : List (String × Value) → Option Value
  | (key, value) :: _ => if key = dateKey then some value else none
  | [] => none

mutual

/-- The value with its dates and in key order; a table that starts as a date has to give one. -/
def canonical? : Value → Option Value
  | array items => (canonicalItems? items).map array
  | table members =>
    match dateMember? members with
    | some (string text) => dateOfText? text
    | some _ => none
    | none => (canonicalMembers? members).map fun members => table (Dict.ofList members).entries
  | other => some other

def canonicalItems? : List Value → Option (List Value)
  | [] => some []
  | item :: items => do
    let item ← canonical? item
    let items ← canonicalItems? items
    return item :: items

def canonicalMembers? : List (String × Value) → Option (List (String × Value))
  | [] => some []
  | (key, value) :: members => do
    let value ← canonical? value
    let members ← canonicalMembers? members
    return (key, value) :: members

end

end Value

def canonicalText? (members : List (String × Value)) : Option (List (String × Value)) :=
  (Value.canonicalMembers? members).map fun members => (Dict.ofList members).entries

end TypedEnv.Toml
