/-!
Dictionaries from strings, kept in strictly increasing key order.  The order is part of the type,
so two dictionaries with the same entries are equal and every listing of one is sorted.
-/

namespace TypedEnv

universe u

/-- Puts a value under a key of a sorted list of entries, in the place of an earlier one. -/
def insertEntry {α : Type u} (key : String) (value : α) : List (String × α) → List (String × α)
  | [] => [(key, value)]
  | (k, v) :: rest =>
    if key = k then (key, value) :: rest
    else if key < k then (key, value) :: (k, v) :: rest
    else (k, v) :: insertEntry key value rest

theorem mem_keys_insertEntry {α : Type u} {key k : String} {value : α}
    {entries : List (String × α)} :
    k ∈ (insertEntry key value entries).map Prod.fst ↔
      k = key ∨ k ∈ entries.map Prod.fst := by
  induction entries with
  | nil => simp [insertEntry]
  | cons entry rest ih =>
    obtain ⟨k', v'⟩ := entry
    simp only [insertEntry]
    split
    · next h => subst h; simp
    · split
      · simp
      · simp only [List.map_cons, List.mem_cons, ih]
        exact or_left_comm

theorem lt_of_ne_of_not_lt {a b : String} (hne : a ≠ b) (hlt : ¬ a < b) : b < a :=
  Decidable.byContradiction fun h =>
    hne (String.le_antisymm (String.not_lt.1 h) (String.not_lt.1 hlt))

theorem pairwise_insertEntry {α : Type u} {key : String} {value : α}
    {entries : List (String × α)} (h : (entries.map Prod.fst).Pairwise (· < ·)) :
    ((insertEntry key value entries).map Prod.fst).Pairwise (· < ·) := by
  induction entries with
  | nil => simp [insertEntry]
  | cons entry rest ih =>
    obtain ⟨k, v⟩ := entry
    rw [List.map_cons, List.pairwise_cons] at h
    simp only [insertEntry]
    split
    · next hk =>
      subst hk
      simpa [List.pairwise_cons] using h
    · next hne =>
      split
      · next hlt =>
        simp only [List.map_cons, List.pairwise_cons, List.mem_cons]
        refine ⟨?_, h⟩
        rintro k' (rfl | hk')
        · exact hlt
        · exact String.lt_trans hlt (h.1 k' hk')
      · next hlt =>
        simp only [List.map_cons, List.pairwise_cons]
        refine ⟨fun k' hk' => ?_, ih h.2⟩
        rcases mem_keys_insertEntry.1 hk' with rfl | hk'
        · exact lt_of_ne_of_not_lt hne hlt
        · exact h.1 k' hk'

def valueOf? {α : Type u} (key : String) (entries : List (String × α)) : Option α :=
  (entries.find? fun entry => entry.1 == key).map Prod.snd

@[simp] theorem valueOf?_nil {α : Type u} (key : String) :
    valueOf? key ([] : List (String × α)) = none := rfl

theorem valueOf?_cons {α : Type u} (key : String) (entry : String × α)
    (rest : List (String × α)) :
    valueOf? key (entry :: rest) =
      if entry.1 = key then some entry.2 else valueOf? key rest := by
  unfold valueOf?
  by_cases h : entry.1 = key <;> simp [h]

theorem valueOf?_insertEntry {α : Type u} {key k : String} {value : α}
    {entries : List (String × α)} :
    valueOf? k (insertEntry key value entries) =
      if k = key then some value else valueOf? k entries := by
  induction entries with
  | nil => simp [insertEntry, valueOf?_cons, eq_comm]
  | cons entry rest ih =>
    obtain ⟨k', v'⟩ := entry
    simp only [insertEntry]
    split
    · next h =>
      subst h
      by_cases hk : k = key
      · simp [valueOf?_cons, hk]
      · simp [valueOf?_cons, hk, Ne.symm hk]
    · next h =>
      split
      · by_cases hk : k = key
        · simp [valueOf?_cons, hk]
        · simp [valueOf?_cons, hk, Ne.symm hk]
      · rw [valueOf?_cons, valueOf?_cons, ih]
        by_cases hk : k = key
        · simp [hk, Ne.symm h]
        · simp [hk]

/-- Entries in strictly increasing key order. -/
structure Dict (α : Type u) where
  entries : List (String × α)
  sorted : (entries.map Prod.fst).Pairwise (· < ·)

namespace Dict

variable {α : Type u}

def empty : Dict α := ⟨[], List.Pairwise.nil⟩

def insert (dict : Dict α) (key : String) (value : α) : Dict α :=
  ⟨insertEntry key value dict.entries, pairwise_insertEntry dict.sorted⟩

def ofList (entries : List (String × α)) : Dict α :=
  entries.foldl (fun dict entry => dict.insert entry.1 entry.2) empty

def get? (dict : Dict α) (key : String) : Option α := valueOf? key dict.entries

def contains (dict : Dict α) (key : String) : Bool := (dict.get? key).isSome

def keys (dict : Dict α) : List String := dict.entries.map Prod.fst

def size (dict : Dict α) : Nat := dict.entries.length

def isEmpty (dict : Dict α) : Bool := dict.entries.isEmpty

theorem keys_sorted (dict : Dict α) : dict.keys.Pairwise (· < ·) := dict.sorted

@[ext] theorem ext {a b : Dict α} (h : a.entries = b.entries) : a = b := by
  cases a
  cases b
  simp_all

@[simp] theorem get?_empty (key : String) : (empty : Dict α).get? key = none := rfl

@[simp] theorem get?_insert (dict : Dict α) (key k : String) (value : α) :
    (dict.insert key value).get? k = if k = key then some value else dict.get? k :=
  valueOf?_insertEntry

theorem mem_keys_insert {dict : Dict α} {key k : String} {value : α} :
    k ∈ (dict.insert key value).keys ↔ k = key ∨ k ∈ dict.keys := mem_keys_insertEntry

end Dict

end TypedEnv
