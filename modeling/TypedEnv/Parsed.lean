import TypedEnv.Json.Printer
import TypedEnv.Text.Cut

/-!
The typed values of an env file, by key.
-/

namespace TypedEnv

structure Parsed where
  values : Dict Document

namespace Parsed

def empty : Parsed := ⟨.empty⟩

def insert (parsed : Parsed) (key : String) (value : Document) : Parsed :=
  ⟨parsed.values.insert key value⟩

def ofList (entries : List (String × Document)) : Parsed := ⟨.ofList entries⟩

def get? (parsed : Parsed) (key : String) : Option Document := parsed.values.get? key

def string? (parsed : Parsed) (key : String) : Option String := parsed.get? key >>= Document.string?

def int64? (parsed : Parsed) (key : String) : Option Int := parsed.get? key >>= Document.int64?

def number? (parsed : Parsed) (key : String) : Option Binary64 :=
  parsed.get? key >>= Document.number?

def bool? (parsed : Parsed) (key : String) : Option Bool := parsed.get? key >>= Document.bool?

def items? (parsed : Parsed) (key : String) : Option (List Document) :=
  parsed.get? key >>= Document.items?

def contains (parsed : Parsed) (key : String) : Bool := parsed.values.contains key

def entries (parsed : Parsed) : List (String × Document) := parsed.values.entries

def keys (parsed : Parsed) : List String := parsed.values.keys

def size (parsed : Parsed) : Nat := parsed.values.size

def isEmpty (parsed : Parsed) : Bool := parsed.values.isEmpty

def toDocument (parsed : Parsed) : Document := .object parsed.entries

def display (parsed : Parsed) : String :=
  Text.join "\n" (parsed.entries.map fun (key, value) => key ++ "=" ++ value.display)

end Parsed

end TypedEnv
