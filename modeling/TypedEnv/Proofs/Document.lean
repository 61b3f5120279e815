import TypedEnv.Document
import TypedEnv.Proofs.Binary64

/-!
The two equalities of documents.  Documents are one when they are built alike, which can be
computed; `Document.same` holds of documents without NaN that are one but for the signs of zeros.
-/

namespace TypedEnv.Document

mutual

def identical : Document → Document → Bool
  | null, null => true
  | bool a, bool b => a == b
  | int a, int b => a == b
  | float a, float b => a == b
  | string a, string b => a == b
  | array a, array b => identicalItems a b
  | object a, object b => identicalMembers a b
  | _, _ => false

def identicalItems : List Document → List Document → Bool
  | [], [] => true
  | a :: as, b :: bs => identical a b && identicalItems as bs
  | _, _ => false

def identicalMembers : List (String × Document) → List (String × Document) → Bool
  | [], [] => true
  | (j, a) :: as, (k, b) :: bs => j == k && identical a b && identicalMembers as bs
  | _, _ => false

end

mutual

theorem identical_iff : (a b : Document) → (identical a b = true ↔ a = b)
  | null, b => by cases b <;> simp [identical]
  | bool _, b => by cases b <;> simp [identical]
  | int _, b => by cases b <;> simp [identical]
  | float _, b => by cases b <;> simp [identical]
  | string _, b => by cases b <;> simp [identical]
  | array a, b => by cases b <;> simp [identical, identicalItems_iff a]
  | object a, b => by cases b <;> simp [identical, identicalMembers_iff a]

theorem identicalItems_iff : (a b : List Document) → (identicalItems a b = true ↔ a = b)
  | [], b => by cases b <;> simp [identicalItems]
  | x :: a, b => by cases b <;> simp [identicalItems, identical_iff x, identicalItems_iff a]

theorem identicalMembers_iff :
    (a b : List (String × Document)) → (identicalMembers a b = true ↔ a = b)
  | [], b => by cases b <;> simp [identicalMembers]
  | (key, x) :: a, b => by
    cases b <;> simp [identicalMembers, identical_iff x, identicalMembers_iff a, Prod.ext_iff]

end

instance : DecidableEq Document := fun a b => decidable_of_iff _ (identical_iff a b)

inductive NanFree : Document → Prop
  | null : NanFree null
  | bool (value : Bool) : NanFree (bool value)
  | int (value : Int) : NanFree (int value)
  | float {value : Binary64} (h : value ≠ .nan) : NanFree (float value)
  | string (value : String) : NanFree (string value)
  | array {items : List Document} (h : ∀ item ∈ items, NanFree item) : NanFree (array items)
  | object {members : List (String × Document)} (h : ∀ member ∈ members, NanFree member.2) :
      NanFree (object members)

mutual

/-- The document with the signs of its zeros taken away. -/
def unsignedZeros : Document → Document
  | float x => float x.unsignedZero
  | array items => array (unsignedItems items)
  | object members => object (unsignedMembers members)
  | other => other

def unsignedItems : List Document → List Document
  | [] => []
  | item :: items => unsignedZeros item :: unsignedItems items

def unsignedMembers : List (String × Document) → List (String × Document)
  | [] => []
  | (key, value) :: members => (key, unsignedZeros value) :: unsignedMembers members

end

theorem nanFree_float_iff {x : Binary64} : (float x).NanFree ↔ x ≠ .nan := by
  constructor
  · rintro ⟨⟩
    assumption
  · exact .float

theorem nanFree_array_iff {items : List Document} :
    (array items).NanFree ↔ ∀ item ∈ items, item.NanFree := by
  constructor
  · rintro ⟨⟩
    assumption
  · exact .array

theorem nanFree_object_iff {members : List (String × Document)} :
    (object members).NanFree ↔ ∀ member ∈ members, member.2.NanFree := by
  constructor
  · rintro ⟨⟩
    assumption
  · exact .object

mutual

theorem same_iff : (a b : Document) →
    (a.same b = true ↔ a.NanFree ∧ a.unsignedZeros = b.unsignedZeros)
  | null, b => by cases b <;> simp [same, unsignedZeros, NanFree.null]
  | bool _, b => by cases b <;> simp [same, unsignedZeros, NanFree.bool]
  | int _, b => by cases b <;> simp [same, unsignedZeros, NanFree.int]
  | float _, b => by
    cases b <;> simp [same, unsignedZeros, Binary64.same_iff, nanFree_float_iff]
  | string _, b => by cases b <;> simp [same, unsignedZeros, NanFree.string]
  | array a, b => by
    cases b <;> simp [same, unsignedZeros, sameItems_iff a, nanFree_array_iff]
  | object a, b => by
    cases b <;> simp [same, unsignedZeros, sameMembers_iff a, nanFree_object_iff]

theorem sameItems_iff : (a b : List Document) →
    (sameItems a b = true ↔ (∀ item ∈ a, item.NanFree) ∧ unsignedItems a = unsignedItems b)
  | [], b => by cases b <;> simp [sameItems, unsignedItems]
  | x :: a, b => by
    cases b <;> simp [sameItems, unsignedItems, same_iff x, sameItems_iff a, and_and_and_comm]

theorem sameMembers_iff : (a b : List (String × Document)) →
    (sameMembers a b = true ↔
      (∀ member ∈ a, member.2.NanFree) ∧ unsignedMembers a = unsignedMembers b)
  | [], b => by cases b <;> simp [sameMembers, unsignedMembers]
  | (key, x) :: a, b => by
    cases b with
    | nil => simp [sameMembers, unsignedMembers]
    | cons member b =>
      simp only [sameMembers, unsignedMembers, Bool.and_eq_true, beq_iff_eq, same_iff x,
        sameMembers_iff a, List.forall_mem_cons, List.cons.injEq, Prod.mk.injEq]
      constructor
      · rintro ⟨⟨hkey, hx, heq⟩, ha, hrest⟩
        exact ⟨⟨hx, ha⟩, ⟨hkey, heq⟩, hrest⟩
      · rintro ⟨⟨hx, ha⟩, ⟨hkey, heq⟩, hrest⟩
        exact ⟨⟨hkey, hx, heq⟩, ha, hrest⟩

end

end TypedEnv.Document
