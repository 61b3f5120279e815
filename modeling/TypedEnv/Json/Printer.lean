import TypedEnv.Document
import TypedEnv.Binary64.Printer

/-!
JSON text of documents, without blanks.  Strings escape quotes, backslashes and control characters
and keep all else; members stand in the order of the object, which is key order.
-/

namespace TypedEnv.Json

def hexDigit (n : Nat) : Char := Nat.digitChar (n % 16)

def escaped (c : Char) : List Char :=
  if c = '"' ∨ c = '\\' then ['\\', c]
  else if c = '\x08' then ['\\', 'b']
  else if c = '\t' then ['\\', 't']
  else if c = '\n' then ['\\', 'n']
  else if c = '\x0c' then ['\\', 'f']
  else if c = '\r' then ['\\', 'r']
  else if c.toNat < 0x20 then ['\\', 'u', '0', '0', hexDigit (c.toNat / 16), hexDigit c.toNat]
  else [c]

def stringText (s : String) : List Char := '"' :: s.toList.flatMap escaped ++ ['"']

def intText (n : Int) : List Char :=
  if n < 0 then '-' :: toDigits n.natAbs else toDigits n.natAbs

/-- A floating-point number that is not finite has no JSON text and prints as null. -/
def floatText (x : Binary64) : List Char :=
  if x.isFinite then Notation64.document.text x else ['n', 'u', 'l', 'l']

mutual

def text : Document → List Char
  | .null => ['n', 'u', 'l', 'l']
  | .bool true => ['t', 'r', 'u', 'e']
  | .bool false => ['f', 'a', 'l', 's', 'e']
  | .int n => intText n
  | .float x => floatText x
  | .string s => stringText s
  | .array [] => ['[', ']']
  | .array (item :: items) => '[' :: text item ++ itemsText items
  | .object [] => ['\x7b', '\x7d']
  | .object ((key, value) :: members) =>
    '\x7b' :: stringText key ++ ':' :: text value ++ membersText members

def itemsText : List Document → List Char
  | [] => [']']
  | item :: items => ',' :: text item ++ itemsText items

def membersText : List (String × Document) → List Char
  | [] => ['\x7d']
  | (key, value) :: members =>
    ',' :: stringText key ++ ':' :: text value ++ membersText members

end

end TypedEnv.Json

namespace TypedEnv.Document

/-- The text form of a value: a string as it is, all else as JSON. -/
def display : Document → String
  | string s => s
  | other => String.ofList (Json.text other)

end TypedEnv.Document
