import TypedEnv.Dict

/-!
Dictionaries as maps.  A dictionary is determined by its look-ups, a key is listed exactly when it
has a value, and of several entries with one key the last one counts.
-/

namespace TypedEnv

universe u

variable {α : Type u}

theorem valueOf?_eq_none_iff {key : String} {entries : List (String × α)} :
    valueOf? key entries = none ↔ key ∉ entries.map Prod.fst := by
  induction entries with
  | nil => simp
  | cons entry rest ih =>
    rw [valueOf?_cons]
    by_cases h : entry.1 = key
    · simp [h]
    · rw [if_neg h, ih, List.map_cons, List.mem_cons, not_or]
      exact ⟨fun hr => ⟨fun he => h he.symm, hr⟩, fun hr => hr.2⟩

theorem valueOf?_eq_some_iff {key : String} {value : α} {entries : List (String × α)}
    (hn : (entries.map Prod.fst).Nodup) :
    valueOf? key entries = some value ↔ (key, value) ∈ entries := by
  induction entries with
  | nil => simp
  | cons entry rest ih =>
    rw [List.map_cons, List.nodup_cons] at hn
    rw [valueOf?_cons, List.mem_cons]
    by_cases h : entry.1 = key
    · have hrest : (key, value) ∉ rest := fun hmem => hn.1 (h ▸ List.mem_map_of_mem hmem)
      rw [if_pos h, Option.some.injEq, or_iff_left hrest, Prod.ext_iff]
      exact ⟨fun hv => ⟨h.symm, hv.symm⟩, fun he => he.2.symm⟩
    · have hne : (key, value) ≠ entry := fun he => h (congrArg Prod.fst he).symm
      rw [if_neg h, ih hn.2, or_iff_right hne]

theorem length_insertEntry {key : String} {value : α} {entries : List (String × α)}
    (h : key ∉ entries.map Prod.fst) :
    (insertEntry key value entries).length = entries.length + 1 := by
  induction entries with
  | nil => rfl
  | cons entry rest ih =>
    obtain ⟨k, v⟩ := entry
    rw [List.map_cons, List.mem_cons, not_or] at h
    rw [insertEntry, if_neg h.1]
    split
    · rfl
    · rw [List.length_cons, List.length_cons, ih h.2]

theorem mem_keys_of_valueOf?_eq {x y : String × α} {as bs : List (String × α)} (hne : x.1 ≠ y.1)
    (h : valueOf? x.1 (x :: as) = valueOf? x.1 (y :: bs)) : x.1 ∈ bs.map Prod.fst := by
  apply Decidable.byContradiction
  intro hmem
  rw [valueOf?_cons, valueOf?_cons, if_pos rfl, if_neg hne.symm,
    valueOf?_eq_none_iff.2 hmem] at h
  cases h

theorem eq_of_valueOf?_eq {a b : List (String × α)}
    (ha : (a.map Prod.fst).Pairwise (· < ·)) (hb : (b.map Prod.fst).Pairwise (· < ·))
    (h : ∀ key, valueOf? key a = valueOf? key b) : a = b := by
  induction a generalizing b with
  | nil =>
    cases b with
    | nil => rfl
    | cons entry rest =>
      have hk := h entry.1
      simp [valueOf?_cons] at hk
  | cons x as ih =>
    cases b with
    | nil =>
      have hk := h x.1
      simp [valueOf?_cons] at hk
    | cons y bs =>
      rw [List.map_cons, List.pairwise_cons] at ha hb
      have hxy : x.1 = y.1 := by
        apply Decidable.byContradiction
        intro hne
        have hx : x.1 ∈ bs.map Prod.fst := mem_keys_of_valueOf?_eq hne (h x.1)
        have hy : y.1 ∈ as.map Prod.fst := mem_keys_of_valueOf?_eq (Ne.symm hne) (h y.1).symm
        exact String.lt_irrefl _ (String.lt_trans (ha.1 _ hy) (hb.1 _ hx))
      have hv : x.2 = y.2 := by
        have hk := h x.1
        rw [valueOf?_cons, valueOf?_cons, if_pos rfl, if_pos hxy.symm] at hk
        exact Option.some.inj hk
      have htail : as = bs := by
        apply ih ha.2 hb.2
        intro key
        by_cases hkey : x.1 = key
        · rw [valueOf?_eq_none_iff.2 fun hm => String.lt_irrefl _ (hkey ▸ ha.1 key hm),
            valueOf?_eq_none_iff.2 fun hm => String.lt_irrefl _ (hkey ▸ hxy ▸ hb.1 key hm)]
        · have hk := h key
          rwa [valueOf?_cons, valueOf?_cons, if_neg hkey, if_neg (hxy ▸ hkey)] at hk
      rw [htail, Prod.ext hxy hv]

namespace Dict

theorem ext_get? {a b : Dict α} (h : ∀ key, a.get? key = b.get? key) : a = b :=
  ext (eq_of_valueOf?_eq a.sorted b.sorted h)

theorem get?_eq_none_iff {dict : Dict α} {key : String} :
    dict.get? key = none ↔ key ∉ dict.keys := valueOf?_eq_none_iff

theorem contains_eq_false_iff {dict : Dict α} {key : String} :
    dict.contains key = false ↔ dict.get? key = none := by
  rw [contains, Option.isSome_eq_false_iff, Option.isNone_iff_eq_none]

theorem mem_keys_iff {dict : Dict α} {key : String} :
    key ∈ dict.keys ↔ dict.contains key = true := by
  rw [← Bool.not_eq_false, contains_eq_false_iff, get?_eq_none_iff, Decidable.not_not]

theorem nodup_keys (dict : Dict α) : dict.keys.Nodup := by
  apply List.Pairwise.imp _ dict.keys_sorted
  intro a b hlt heq
  rw [heq] at hlt
  exact String.lt_irrefl b hlt

theorem get?_eq_some_iff {dict : Dict α} {key : String} {value : α} :
    dict.get? key = some value ↔ (key, value) ∈ dict.entries :=
  valueOf?_eq_some_iff dict.nodup_keys

theorem size_insert {dict : Dict α} {key : String} {value : α} (h : dict.get? key = none) :
    (dict.insert key value).size = dict.size + 1 :=
  length_insertEntry (get?_eq_none_iff.1 h)

theorem get?_of_isEmpty {dict : Dict α} (h : dict.isEmpty = true) (key : String) :
    dict.get? key = none := by
  rw [isEmpty, List.isEmpty_iff] at h
  rw [get?, h, valueOf?_nil]

theorem isEmpty_iff {dict : Dict α} : dict.isEmpty = true ↔ ∀ key, dict.get? key = none := by
  constructor
  · exact get?_of_isEmpty
  · intro h
    rw [ext_get? (b := empty) h]
    rfl

theorem isEmpty_eq_false_of_contains {dict : Dict α} {key : String}
    (h : dict.contains key = true) : dict.isEmpty = false := by
  rw [← Bool.not_eq_true]
  intro hempty
  rw [contains, get?_of_isEmpty hempty key] at h
  cases h

theorem get?_foldl_insert (entries : List (String × α)) (dict : Dict α) (key : String) :
    (entries.foldl (fun dict entry => dict.insert entry.1 entry.2) dict).get? key =
      ((entries.reverse.find? (·.1 == key)).map Prod.snd).or (dict.get? key) := by
  induction entries generalizing dict with
  | nil => rfl
  | cons entry rest ih =>
    rw [List.foldl_cons, ih, get?_insert, List.reverse_cons, List.find?_append]
    cases List.find? (·.1 == key) rest.reverse with
    | some later => rfl
    | none =>
      by_cases h : key = entry.1
      · simp [h]
      · simp [h, Ne.symm h]

theorem get?_ofList (entries : List (String × α)) (key : String) :
    (ofList entries).get? key = (entries.reverse.find? (·.1 == key)).map Prod.snd := by
  rw [ofList, get?_foldl_insert, get?_empty, Option.or_none]

theorem entries_foldl_insert (entries : List (String × α)) (dict : Dict α) :
    (entries.foldl (fun dict entry => dict.insert entry.1 entry.2) dict).entries =
      entries.foldl (fun sorted entry => insertEntry entry.1 entry.2 sorted) dict.entries := by
  induction entries generalizing dict with
  | nil => rfl
  | cons entry rest ih => exact ih (dict.insert entry.1 entry.2)

theorem entries_ofList (entries : List (String × α)) :
    (ofList entries).entries =
      entries.foldl (fun sorted entry => insertEntry entry.1 entry.2 sorted) [] :=
  entries_foldl_insert entries empty

theorem mem_of_mem_ofList {entries : List (String × α)} {entry : String × α}
    (h : entry ∈ (ofList entries).entries) : entry ∈ entries := by
  obtain ⟨key, value⟩ := entry
  rw [← get?_eq_some_iff, get?_ofList, Option.map_eq_some_iff] at h
  obtain ⟨⟨own, value⟩, hfound, rfl⟩ := h
  obtain rfl : own = key := by simpa using List.find?_some hfound
  exact List.mem_reverse.1 (List.mem_of_find?_eq_some hfound)

theorem ofList_entries (dict : Dict α) : ofList dict.entries = dict := by
  apply ext_get?
  intro key
  have hnodup : (dict.entries.reverse.map Prod.fst).Nodup := by
    rw [List.map_reverse]
    exact (List.reverse_perm _).nodup_iff.2 dict.nodup_keys
  apply Option.ext
  intro value
  rw [get?_ofList, ← valueOf?, valueOf?_eq_some_iff hnodup, List.mem_reverse, get?_eq_some_iff]

universe v

variable {β : Type v}

def map (f : α → β) (dict : Dict α) : Dict β where
  entries := dict.entries.map fun entry => (entry.1, f entry.2)
  sorted := by
    rw [List.map_map]
    exact dict.sorted

@[simp] theorem keys_map (f : α → β) (dict : Dict α) : (dict.map f).keys = dict.keys :=
  List.map_map

@[simp] theorem get?_map (f : α → β) (dict : Dict α) (key : String) :
    (dict.map f).get? key = (dict.get? key).map f := by
  unfold get? valueOf? map
  dsimp only
  rw [List.find?_map, Option.map_map, Option.map_map]
  rfl

end Dict

theorem cases_of_rel {α β : Type} {r : α → β → Prop} {a : Option α} {b : Option β}
    (h : Option.Rel r a b) : (a = none ∧ b = none) ∨ ∃ x y, a = some x ∧ b = some y ∧ r x y := by
  cases h with
  | none => exact Or.inl ⟨rfl, rfl⟩
  | some hr => exact Or.inr ⟨_, _, rfl, rfl, hr⟩

end TypedEnv
