import Mathlib.Data.List.Basic

/-!
Patterns and their matches.  A pattern may match the front of a text in several ways.  The ways are
listed in the order in which they are preferred, longer repetitions before shorter ones, and a text
is matched in the first way at the leftmost place that has any.
-/

namespace TypedEnv

inductive Pattern where
  /-- A character of a set. -/
  | one (set : Char → Bool)
  /-- Characters of a set, rather many than few. -/
  | many (set : Char → Bool)
  | seq (first second : Pattern)
  /-- A pattern or nothing, rather the pattern. -/
  | optional (inner : Pattern)
  | group (inner : Pattern)
  | start
  | finish

namespace Pattern

/-- A way to match the front of a text: the front, what is left of the text, and the texts of the
groups from left to right. -/
structure Way where
  taken : List Char
  rest : List Char
  groups : List (Option (List Char))

def Way.seq (first second : Way) : Way :=
  ⟨first.taken ++ second.taken, second.rest, first.groups ++ second.groups⟩

def Way.group (way : Way) : Way := { way with groups := some way.taken :: way.groups }

def groupCount : Pattern → Nat
  | one _ | many _ | start | finish => 0
  | seq first second => first.groupCount + second.groupCount
  | optional inner => inner.groupCount
  | group inner => inner.groupCount + 1

def runs (set : Char → Bool) : List Char → List Way
  | [] => [⟨[], [], []⟩]
  | c :: rest =>
    (if set c then (runs set rest).map (Way.seq ⟨[c], rest, []⟩) else []) ++ [⟨[], c :: rest, []⟩]

def ways : Pattern → (atStart : Bool) → List Char → List Way
  | one _, _, [] => []
  | one set, _, c :: rest => if set c then [⟨[c], rest, []⟩] else []
  | many set, _, text => runs set text
  | seq first second, atStart, text => (first.ways atStart text).flatMap fun way =>
    (second.ways (atStart && way.taken.isEmpty) way.rest).map way.seq
  | optional inner, atStart, text =>
    inner.ways atStart text ++ [⟨[], text, List.replicate inner.groupCount none⟩]
  | group inner, atStart, text => (inner.ways atStart text).map Way.group
  | start, atStart, text => if atStart then [⟨[], text, []⟩] else []
  | finish, _, text => if text = [] then [⟨[], [], []⟩] else []

def search (pattern : Pattern) (atStart : Bool) : List Char → Option Way
  | [] => (pattern.ways atStart []).head?
  | c :: rest => (pattern.ways atStart (c :: rest)).head?.or (pattern.search false rest)

def captures? (pattern : Pattern) (text : List Char) : Option (List (Option (List Char))) :=
  (pattern.search true text).map Way.groups

variable {set : Char → Bool} {pattern : Pattern} {text : List Char}

def Floating : Pattern → Prop
  | one _ | many _ | finish => True
  | seq first second => first.Floating ∧ second.Floating
  | optional inner | group inner => inner.Floating
  | start => False

theorem Floating.ways (h : pattern.Floating) (atStart : Bool) (text : List Char) :
    pattern.ways atStart text = pattern.ways false text := by
  induction pattern generalizing atStart text with
  | one set => cases text <;> rfl
  | many set => rfl
  | seq first second ihfirst ihsecond =>
    rw [Pattern.ways, Pattern.ways, ihfirst h.1]
    congr 1
    funext way
    rw [ihsecond h.2, Bool.false_and]
  | optional inner ih => rw [Pattern.ways, Pattern.ways, ih h]
  | group inner ih => rw [Pattern.ways, Pattern.ways, ih h]
  | start => cases h
  | finish => rfl

def captured? (pattern : Pattern) (text : List Char) : Option (List (Option (List Char))) :=
  (pattern.ways false text).head?.map Way.groups

theorem search_start_false (pattern : Pattern) (text : List Char) :
    (seq start pattern).search false text = none := by
  induction text with
  | nil => rfl
  | cons c rest ih =>
    rw [search, ih]
    rfl

theorem captures?_start (h : pattern.Floating) (text : List Char) :
    (seq start pattern).captures? text = pattern.captured? text := by
  have hways : (seq start pattern).ways true text =
      (pattern.ways false text).map (Way.seq ⟨[], text, []⟩) := by
    rw [← h.ways true]
    exact List.append_nil _
  have hsearch : (seq start pattern).search true text =
      ((seq start pattern).ways true text).head? := by
    cases text with
    | nil => rfl
    | cons c rest => rw [search, search_start_false, Option.or_none]
  rw [captures?, hsearch, hways, List.head?_map, Option.map_map]
  rfl

section Leaves

variable {rest : List Char} {first second : Pattern}

/-- Some way to match the front of a text that is not the start leaves the rest. -/
def Leaves (pattern : Pattern) (text rest : List Char) : Prop :=
  ∃ way ∈ pattern.ways false text, way.rest = rest

theorem mem_runs (set : Char → Bool) (text : List Char) : ⟨[], text, []⟩ ∈ runs set text := by
  cases text with
  | nil => exact List.mem_singleton_self _
  | cons c rest => exact List.mem_append_right _ (List.mem_singleton_self _)

theorem isSome_captured?_iff :
    (pattern.captured? text).isSome = true ↔ ∃ rest, pattern.Leaves text rest := by
  rw [captured?, Option.isSome_map]
  cases hways : pattern.ways false text with
  | nil => simp [Leaves, hways]
  | cons way later => simp [Leaves, hways]

theorem leaves_one : (one set).Leaves text rest ↔ ∃ c, set c = true ∧ text = c :: rest := by
  cases text with
  | nil => simp [Leaves, ways]
  | cons c later =>
    rw [Leaves, ways]
    split
    · next hc => simp [hc]
    · next hc => simp [hc]

theorem leaves_many_cons (c : Char) (later : List Char) :
    (many set).Leaves (c :: later) rest ↔
      rest = c :: later ∨ set c = true ∧ (many set).Leaves later rest := by
  simp only [Leaves, ways, runs, List.mem_append, List.mem_singleton]
  constructor
  · rintro ⟨way, hway | rfl, rfl⟩
    · split at hway
      · next hc =>
        obtain ⟨tail, htail, rfl⟩ := List.mem_map.1 hway
        exact Or.inr ⟨hc, tail, htail, rfl⟩
      · cases hway
    · exact Or.inl rfl
  · rintro (rfl | ⟨hc, way, hway, hrest⟩)
    · exact ⟨_, Or.inr rfl, rfl⟩
    · rw [if_pos hc]
      exact ⟨_, Or.inl (List.mem_map_of_mem hway), hrest⟩

theorem leaves_many : (many set).Leaves text rest ↔
    ∃ run : List Char, text = run ++ rest ∧ ∀ c ∈ run, set c = true := by
  constructor
  · intro h
    induction text with
    | nil =>
      obtain ⟨way, hway, hrest⟩ := h
      cases List.mem_singleton.1 hway
      exact ⟨[], hrest, nofun⟩
    | cons c later ih =>
      rcases (leaves_many_cons c later).1 h with rfl | ⟨hc, hlater⟩
      · exact ⟨[], rfl, nofun⟩
      · obtain ⟨run, hrun, hset⟩ := ih hlater
        exact ⟨c :: run, congrArg (c :: ·) hrun, List.forall_mem_cons.2 ⟨hc, hset⟩⟩
  · rintro ⟨run, rfl, hset⟩
    induction run with
    | nil => exact ⟨_, mem_runs set rest, rfl⟩
    | cons c run ih =>
      rw [List.forall_mem_cons] at hset
      exact (leaves_many_cons c _).2 (Or.inr ⟨hset.1, ih hset.2⟩)

theorem leaves_seq : (seq first second).Leaves text rest ↔
    ∃ between, first.Leaves text between ∧ second.Leaves between rest := by
  simp only [Leaves, ways, Bool.false_and, List.mem_flatMap, List.mem_map]
  constructor
  · rintro ⟨_, ⟨way, hway, later, hlater, rfl⟩, hrest⟩
    exact ⟨way.rest, ⟨way, hway, rfl⟩, later, hlater, hrest⟩
  · rintro ⟨_, ⟨way, hway, rfl⟩, later, hlater, hrest⟩
    exact ⟨way.seq later, ⟨way, hway, later, hlater, rfl⟩, hrest⟩

theorem leaves_finish : finish.Leaves text rest ↔ text = [] ∧ rest = [] := by
  rw [Leaves, ways]
  split
  · next h => simp [h]
  · next h => simp [h]

end Leaves

/-- If a continuation that succeeds after some characters also succeeds after one more, it is the
longest run that counts. -/
theorem findSome?_runs {β : Type} {next : Way → Option β}
    (hnext : ∀ taken c rest, set c = true → (next ⟨taken, c :: rest, []⟩).isSome = true →
      (next ⟨taken ++ [c], rest, []⟩).isSome = true) :
    (runs set text).findSome? next = next ⟨text.takeWhile set, text.dropWhile set, []⟩ := by
  induction text generalizing next with
  | nil =>
    rw [runs, List.findSome?_singleton]
    rfl
  | cons c rest ih =>
    rw [runs, List.findSome?_append, List.findSome?_singleton]
    by_cases hc : set c = true
    · have hih := @ih (next ∘ Way.seq ⟨[c], rest, []⟩) fun taken d later hd =>
        hnext (c :: taken) d later hd
      rw [if_pos hc, List.findSome?_map, hih, List.takeWhile_cons_of_pos hc,
        List.dropWhile_cons_of_pos hc]
      cases hshort : next ⟨[], c :: rest, []⟩ with
      | none => exact Option.or_none
      | some found =>
        have hone := hnext [] c rest hc (by rw [hshort]; rfl)
        have hlong : ((runs set rest).findSome? (next ∘ Way.seq ⟨[c], rest, []⟩)).isSome = true :=
          List.findSome?_isSome_iff.2 ⟨_, mem_runs set rest, hone⟩
        rw [hih] at hlong
        exact Option.or_of_isSome hlong
    · rw [if_neg hc, List.takeWhile_cons_of_neg hc, List.dropWhile_cons_of_neg hc]
      rfl

theorem captured?_seq (first second : Pattern) (text : List Char) :
    (seq first second).captured? text = (first.ways false text).findSome? fun way =>
      (second.captured? way.rest).map (way.groups ++ ·) := by
  rw [captured?, ways, List.head?_flatMap, List.map_findSome?]
  congr 1
  funext way
  rw [Function.comp_apply, Bool.false_and, List.head?_map, captured?, Option.map_map,
    Option.map_map]
  rfl

theorem captured?_finish (text : List Char) :
    finish.captured? text = if text = [] then some [] else none := by
  rw [captured?, ways]
  split <;> rfl

theorem captured?_one_seq_cons (c : Char) (rest : List Char) :
    (seq (one set) pattern).captured? (c :: rest) =
      if set c then pattern.captured? rest else none := by
  rw [captured?_seq, ways]
  split
  · rw [List.findSome?_singleton]
    exact Option.map_id'
  · rfl

/-- A pattern that goes on matching when a character of a set is taken away from its front. -/
def Sheds (pattern : Pattern) (set : Char → Bool) : Prop :=
  ∀ c rest, set c = true → (pattern.captured? (c :: rest)).isSome = true →
    (pattern.captured? rest).isSome = true

theorem captured?_many_seq (h : pattern.Sheds set) (text : List Char) :
    (seq (many set) pattern).captured? text = pattern.captured? (text.dropWhile set) := by
  rw [captured?_seq, ways, findSome?_runs]
  · exact Option.map_id'
  · intro taken c rest hc hsome
    rw [Option.isSome_map] at hsome ⊢
    exact h c rest hc hsome

theorem captured?_some_seq (h : pattern.Sheds set) (text : List Char) :
    (seq (group (seq (one set) (many set))) pattern).captured? text =
      if text.takeWhile set = [] then none
      else (pattern.captured? (text.dropWhile set)).map (some (text.takeWhile set) :: ·) := by
  rw [captured?_seq]
  cases text with
  | nil => rfl
  | cons c rest =>
    by_cases hc : set c = true
    · have hways : (group (seq (one set) (many set))).ways false (c :: rest) =
          (runs set rest).map (Way.group ∘ Way.seq ⟨[c], rest, []⟩) := by
        rw [ways, ways, ways, if_pos hc, List.flatMap_singleton, ways, List.map_map]
      rw [hways, List.findSome?_map, findSome?_runs, List.takeWhile_cons_of_pos hc,
        List.dropWhile_cons_of_pos hc, if_neg (List.cons_ne_nil _ _)]
      · rfl
      · intro taken d later hd hsome
        rw [Function.comp_apply, Option.isSome_map] at hsome ⊢
        exact h d later hd hsome
    · have hways : (group (seq (one set) (many set))).ways false (c :: rest) = [] := by
        rw [ways, ways, ways, if_neg hc]
        rfl
      rw [hways, List.takeWhile_cons_of_neg hc, if_pos rfl]
      rfl

theorem captured?_optional_seq (h : pattern.Sheds set) (text : List Char) :
    (seq (optional (group (many set))) pattern).captured? text =
      ((pattern.captured? (text.dropWhile set)).map (some (text.takeWhile set) :: ·)).or
        ((pattern.captured? text).map (none :: ·)) := by
  rw [captured?_seq, ways, ways, ways, List.findSome?_append, List.findSome?_map, findSome?_runs,
    List.findSome?_singleton]
  · rfl
  · intro taken c rest hc hsome
    rw [Function.comp_apply, Option.isSome_map] at hsome ⊢
    exact h c rest hc hsome

end Pattern

end TypedEnv
