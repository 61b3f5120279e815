import TypedEnv.Toml.Value

/-!
Building tables from keys and headers.  Members stand in the order in which they are written.

A table is written by a header of its own, or comes to be because a longer header names it, or a
key with points does.  Which of these it was decides what may still be added: nothing is written
twice, and points do not reach into a table that a header wrote.
-/

namespace TypedEnv.Toml

inductive Origin where
  | header
  | implied
  | dotted
  deriving DecidableEq

inductive Node where
  | value (value : Value)
  | table (origin : Origin) (members : List (String × Node))
  /-- A list of tables, each written by a header; the last one is still open. -/
  | tables (elements : List (List (String × Node)))

abbrev Members := List (String × Node)

namespace Members

/-- Puts a node under a key: in the place of an earlier one, or else at the end. -/
def put (key : String) (node : Node) : Members → Members
  | [] => [(key, node)]
  | (k, other) :: rest => if key = k then (key, node) :: rest else (k, other) :: put key node rest

def putLast (key : String) (node : Node) (members : Members) : Members :=
  (members.filter fun member => member.1 != key) ++ [(key, node)]

/-- Adds a value below the path of a key.  `open_` tells that a key without further parts may add to
the table at hand. -/
def addValue (open_ : Bool) : List String → String → Value → Members → Option Members
  | [], key, value, members =>
    if open_ ∧ valueOf? key members = none then some (put key (.value value) members)
    else none
  | part :: path, key, value, members =>
    match valueOf? part members with
    | none =>
      (addValue true path key value []).map fun inner =>
        put part (.table .dotted inner) members
    | some (.table .header _) => none
    | some (.table origin inner) =>
      (addValue (origin = .dotted) path key value inner).map fun inner =>
        put part (.table origin inner) members
    | some (.tables elements) =>
      match elements.getLast? with
      | none => none
      | some last =>
        (addValue false path key value last).map fun last =>
          put part (.tables (elements.dropLast ++ [last])) members
    | some (.value _) => none

def atPath (change : Members → Option Members) : List String → Members → Option Members
  | [], members => change members
  | part :: path, members =>
    match valueOf? part members with
    | none =>
      (atPath change path []).map fun inner => put part (.table .implied inner) members
    | some (.table origin inner) =>
      (atPath change path inner).map fun inner => put part (.table origin inner) members
    | some (.tables elements) =>
      match elements.getLast? with
      | none => none
      | some last =>
        (atPath change path last).map fun last =>
          put part (.tables (elements.dropLast ++ [last])) members
    | some (.value _) => none

/-- Opens a table by its header.  Only a table that was implied may be there already; it then counts
as written at its header. -/
def openTable (name : String) (members : Members) : Option Members :=
  match valueOf? name members with
  | none => some (put name (.table .header []) members)
  | some (.table .implied inner) => some (putLast name (.table .header inner) members)
  | some _ => none

def openElement (name : String) (members : Members) : Option Members :=
  match valueOf? name members with
  | none => some (put name (.tables [[]]) members)
  | some (.tables elements) => some (put name (.tables (elements ++ [[]])) members)
  | some _ => none

end Members

mutual

def Node.toValue : Node → Value
  | .value value => value
  | .table _ members => .table (membersToValues members)
  | .tables elements => .array (elementsToValues elements)

def membersToValues : List (String × Node) → List (String × Value)
  | [] => []
  | (key, node) :: members => (key, node.toValue) :: membersToValues members

def elementsToValues : List (List (String × Node)) → List Value
  | [] => []
  | members :: elements => .table (membersToValues members) :: elementsToValues elements

end

def tableOfPairs (pairs : List ((List String × String) × Value)) : Option Value :=
  (pairs.foldlM (fun members ((path, key), value) => Members.addValue true path key value members)
    ([] : Members)).map fun members => .table (membersToValues members)

end TypedEnv.Toml
