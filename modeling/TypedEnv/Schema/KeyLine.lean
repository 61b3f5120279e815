import TypedEnv.Text.Blank
import TypedEnv.Text.Cut

/-!
The line of a schema file on which a key of a rule stands, found in the text of the file.  Lines
count from one, and zero stands for a key that was not found.  A key is given as `FIELD.name` and
parted at its first point.
-/

namespace TypedEnv.KeyLine

open TypedEnv.Text

def parts? (key : String) : Option (List Char × List Char) := cutAt ['.'] key.toList

def after? (beginning text : List Char) : Option (List Char) :=
  if beginning.isPrefixOf text then some (text.drop beginning.length) else none

def dropEnd (p : Char → Bool) (text : List Char) : List Char :=
  (text.reverse.dropWhile p).reverse

def header? (line : List Char) : Option (List Char) :=
  match line with
  | '[' :: '[' :: _ => none
  | '[' :: _ =>
    let name := trim (dropEnd (· == ']') (line.dropWhile (· == '[')))
    some (dropEnd (· == '"') (name.dropWhile (· == '"')))
  | _ => none

def assigned? (name line : List Char) : Option (List Char) :=
  match after? name line with
  | some rest =>
    match trimStart rest with
    | '=' :: value => some value
    | _ => none
  | none => none

/-- The line writes the key: inside the field's own table by its name, and before all headers by
the field's name with a table that mentions the key's name. -/
def writes (field name section_ line : List Char) : Bool :=
  if section_ = field then (assigned? name line).isSome
  else if section_ = [] then
    match assigned? field line with
    | some value => (trimStart value).head? == some '\x7b' && occursIn name (trimStart value)
    | none => false
  else false

/-- Searches the lines from number `number` on, below the header `section_`. -/
def search (field name : List Char) (number : Nat) (section_ : List Char) :
    List (List Char) → Nat
  | [] => 0
  | line :: rest =>
    let line := trim line
    match header? line with
    | some header => search field name (number + 1) header rest
    | none =>
      if writes field name section_ line then number
      else search field name (number + 1) section_ rest

def inTables (text : String) (key : String) : Nat :=
  match parts? key with
  | some (field, name) => search field name 1 [] (lines text.toList)
  | none => 0

def firstHolding (piece : List Char) (number : Nat) :
    List (List Char) → Option (Nat × List Char × List (List Char))
  | [] => none
  | line :: rest =>
    match cutAt piece line with
    | some (_, after) => some (number, after, rest)
    | none => firstHolding piece (number + 1) rest

def inQuotes (name : List Char) : List Char := '"' :: name ++ ['"']

/-- The line of a key in a JSON file: the first one that holds its name in quotes, from the first
place on that holds the field's name in quotes. -/
def inObjects (text : String) (key : String) : Nat :=
  match parts? key with
  | none => 0
  | some (field, name) =>
    match firstHolding (inQuotes field) 1 (lines text.toList) with
    | none => 0
    | some (number, after, rest) =>
      if occursIn (inQuotes name) after then number
      else match firstHolding (inQuotes name) (number + 1) rest with
        | some (number, _) => number
        | none => 0

end TypedEnv.KeyLine
