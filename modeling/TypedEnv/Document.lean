import TypedEnv.Binary64
import TypedEnv.Dict

/-!
Documents: the typed values that readers produce.  Integers and floating-point numbers are
different values, also where they denote the same number.  The members of an object stand in
strictly increasing key order, which `Document.WellKeyed` states for every level.
-/

namespace TypedEnv

inductive Document where
  | null
  | bool (value : Bool)
  | int (value : Int)
  | float (value : Binary64)
  | string (value : String)
  | array (items : List Document)
  | object (members : List (String × Document))
  deriving Inhabited

namespace Document

/-- An object from members in any order; of several members with one key the last one stays. -/
def ofMembers (members : List (String × Document)) : Document :=
  object (members.foldl (fun entries member => insertEntry member.1 member.2 entries) [])

/-- The members of every object stand in strictly increasing key order. -/
inductive WellKeyed : Document → Prop
  | null : WellKeyed null
  | bool (value : Bool) : WellKeyed (bool value)
  | int (value : Int) : WellKeyed (int value)
  | float (value : Binary64) : WellKeyed (float value)
  | string (value : String) : WellKeyed (string value)
  | array {items : List Document} (h : ∀ item ∈ items, WellKeyed item) : WellKeyed (array items)
  | object {members : List (String × Document)}
      (sorted : (members.map Prod.fst).Pairwise (· < ·))
      (h : ∀ member ∈ members, WellKeyed member.2) : WellKeyed (object members)

mutual

/-- Equality of documents.  Floating-point numbers are equal as numbers, so the two zeros are. -/
def same : Document → Document → Bool
  | null, null => true
  | bool a, bool b => a == b
  | int a, int b => a == b
  | float a, float b => a.same b
  | string a, string b => a == b
  | array a, array b => sameItems a b
  | object a, object b => sameMembers a b
  | _, _ => false

def sameItems : List Document → List Document → Bool
  | [], [] => true
  | a :: as, b :: bs => same a b && sameItems as bs
  | _, _ => false

def sameMembers : List (String × Document) → List (String × Document) → Bool
  | [], [] => true
  | (j, a) :: as, (k, b) :: bs => j == k && same a b && sameMembers as bs
  | _, _ => false

end

def isNull : Document → Bool
  | null => true
  | _ => false

def string? : Document → Option String
  | string s => some s
  | _ => none

def bool? : Document → Option Bool
  | bool b => some b
  | _ => none

def int64? : Document → Option Int
  | int n => if leastInt64 ≤ n ∧ n ≤ greatestInt64 then some n else none
  | _ => none

def number? : Document → Option Binary64
  | int n => some (.ofInt n)
  | float x => some x
  | _ => none

def items? : Document → Option (List Document)
  | array items => some items
  | _ => none

/-- The finite number itself; what is not finite has no place in a document and becomes null. -/
def ofBinary64 (x : Binary64) : Document := if x.isFinite then float x else null

end Document

end TypedEnv
