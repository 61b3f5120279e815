import TypedEnv.Document
import TypedEnv.Json.Parser
import TypedEnv.Text.Blank
import TypedEnv.Text.Cut

/-!
Readers decide which raw texts belong to a type and turn them into documents.  Each goes by a type
id.  A leaf looks at the raw text alone; a union tries its members from left to right; a
redirect stands for whatever another id means at the time it is asked.  The leaves that
every parser starts with are here, and a few shapes of readers for types of one's own.
-/

namespace TypedEnv

open TypedEnv.Text

structure Leaf where
  id : String
  accepts : String → Bool
  parse : String → Document

inductive Reader where
  | leaf (own : Leaf)
  | union (expression : String)
  | redirect (name target : String)

namespace Reader

def id : Reader → String
  | leaf own => own.id
  | union expression => expression
  | redirect name _ => name

end Reader

def unionMark : Char := '|'

def isUnionId (id : String) : Bool := id.toList.contains unionMark

/-- The ids between the separators, without the blanks around them. -/
def unionMembers (expression : String) : List String :=
  (Text.splitWhere (· == unionMark) expression.toList).map fun member =>
    String.ofList (Text.trim member)

/-- The elements of a raw list.  An empty delimiter parts all characters. -/
def splitList (delimiter raw : String) : List String :=
  match delimiter.toList with
  | [] => raw.toList.map fun c => String.ofList [c]
  | head :: tail => (splitOn head tail raw.toList).map String.ofList

def rawInt64? (raw : String) : Option Int := int64? (trim raw.toList)

def rawFinite? (raw : String) : Option Binary64 :=
  (Binary64.ofText? (trim raw.toList)).filter Binary64.isFinite

def rawBool? (raw : String) : Option Bool :=
  let word := String.ofList ((trim raw.toList).map Char.toLower)
  if word ∈ ["true", "1", "yes", "on"] then some true
  else if word ∈ ["false", "0", "no", "off"] then some false
  else none

def isAddressChar (c : Char) : Bool := !isBlank c && c != '@'

def isEmail (text : List Char) : Bool :=
  match text.dropWhile isAddressChar with
  | '@' :: domain =>
    text.head? != some '@' && domain.all isAddressChar && (domain.drop 1).dropLast.contains '.'
  | _ => false

namespace Leaf

def string : Leaf := ⟨"string", fun _ => true, .string⟩

def int : Leaf where
  id := "int"
  accepts raw := (rawInt64? raw).isSome
  parse raw := match rawInt64? raw with
    | some n => .int n
    | none => .string raw

/-- Finite numbers; a text that reads as an integer stays one. -/
def number : Leaf where
  id := "number"
  accepts raw := (rawFinite? raw).isSome
  parse raw := match rawInt64? raw, rawFinite? raw with
    | some n, _ => .int n
    | none, some x => .float x
    | none, none => .string raw

def boolean : Leaf where
  id := "boolean"
  accepts raw := (rawBool? raw).isSome
  parse raw := match rawBool? raw with
    | some b => .bool b
    | none => .null

def json : Leaf where
  id := "json"
  accepts raw := (Json.parse raw.toList).isOk
  parse raw := match Json.parse raw.toList with
    | .ok document => document
    | .error _ => .string raw

def email : Leaf := ⟨"email", fun raw => isEmail raw.toList, .string⟩

def array (delimiter : String) : Leaf where
  id := "array"
  accepts _ := true
  parse raw := .array ((splitList delimiter raw).map .string)

def builtins (delimiter : String) : List Leaf :=
  [array delimiter, string, int, number, boolean, json, email]

def constant (id : String) (value : Document) : Leaf := ⟨id, fun _ => true, fun _ => value⟩

def never (id : String) : Leaf := ⟨id, fun _ => false, .string⟩

def stripping (id beginning : String) : Leaf where
  id := id
  accepts raw := beginning.toList.isPrefixOf raw.toList
  parse raw :=
    if beginning.toList.isPrefixOf raw.toList then
      .string (String.ofList (raw.toList.drop beginning.toList.length))
    else .string raw

def portBound : Nat := 65536

def port : Leaf where
  id := "port"
  accepts raw := match naturalBelow? portBound raw.toList with
    | some n => n != 0
    | none => false
  parse raw := match naturalBelow? portBound raw.toList with
    | some n => .int n
    | none => .null

end Leaf

theorem splitList_empty (raw : String) :
    splitList "" raw = raw.toList.map fun c => String.ofList [c] := rfl

theorem splitList_ne_nil {delimiter : String} (raw : String) (h : delimiter.toList ≠ []) :
    splitList delimiter raw ≠ [] := by
  unfold splitList
  split
  · contradiction
  · simp [splitOn_ne_nil]

end TypedEnv
