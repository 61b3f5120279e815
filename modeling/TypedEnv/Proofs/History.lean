import Mathlib.Data.Finset.Card
import TypedEnv.Proofs.Meaning

/-!
Histories of a registry: registrations and look-ups in any order.

Two things are said of all histories of grounded readers.  Answers depend on the registrations
before them alone, however often unions were looked up in between.  And the entries are those of
the last registration under each id, or else of the first look-up of a union expression.
-/

namespace TypedEnv

inductive Operation where
  | register (reader : Reader)
  | resolve (id : String)
  | accepts (id raw : String)
  | parse (id raw : String)

/-- What an operation answers; nothing is known of a text whose id has no reader. -/
inductive Answer where
  | registered
  | found (entry : Option Entry)
  | verdict (accepted : Option Bool)
  | value (parsed : Option Document)

def Answer.anonymous : Answer → Answer
  | found entry => found (entry.map fun entry => ⟨0, entry.reader⟩)
  | answer => answer

namespace Operation

/-- Only grounded readers are registered. -/
def Grounded : Operation → Prop
  | register reader => reader.Grounded
  | _ => True

instance : (operation : Operation) → Decidable operation.Grounded
  | register reader => inferInstanceAs (Decidable reader.Grounded)
  | resolve _ => .isTrue trivial
  | accepts _ _ => .isTrue trivial
  | parse _ _ => .isTrue trivial

def isRegistration : Operation → Bool
  | register _ => true
  | _ => false

def Registers (id : String) : Operation → Prop
  | register reader => reader.id = id
  | _ => False

def LooksUp (id : String) : Operation → Prop
  | register _ => False
  | resolve own => own = id
  | accepts own _ => own = id
  | parse own _ => own = id

theorem LooksUp.unique {operation : Operation} {id other : String} (h : operation.LooksUp id)
    (hother : operation.LooksUp other) : id = other := by
  cases operation with
  | register reader => cases h
  | resolve own => exact h.symm.trans hother
  | accepts own raw => exact h.symm.trans hother
  | parse own raw => exact h.symm.trans hother

end Operation

namespace Registry

def perform (registry : Registry) : Operation → Answer × Registry
  | .register reader => (.registered, registry.register reader)
  | .resolve id =>
    match registry.resolve id with
    | (entry, registry) => (.found entry, registry)
  | .accepts id raw =>
    match registry.resolve id with
    | (none, registry) => (.verdict none, registry)
    | (some entry, registry) =>
      match entry.reader.accepts raw registry with
      | (accepted, registry) => (.verdict (some accepted), registry)
  | .parse id raw =>
    match registry.resolve id with
    | (none, registry) => (.value none, registry)
    | (some entry, registry) =>
      match entry.reader.parse raw registry with
      | (parsed, registry) => (.value (some parsed), registry)

def run (registry : Registry) (history : List Operation) : Registry :=
  history.foldl (fun registry operation => (registry.perform operation).2) registry

def answers (registry : Registry) : List Operation → List Answer
  | [] => []
  | operation :: later =>
    (registry.perform operation).1 :: (registry.perform operation).2.answers later

variable {registry other : Registry} {id : String} {entry : Entry} {operation : Operation}
  {history : List Operation}

@[simp] theorem run_nil (registry : Registry) : registry.run [] = registry := rfl

@[simp] theorem run_cons (registry : Registry) (operation : Operation) (later : List Operation) :
    registry.run (operation :: later) = (registry.perform operation).2.run later := rfl

@[simp] theorem run_append (registry : Registry) (before after : List Operation) :
    registry.run (before ++ after) = (registry.run before).run after :=
  List.foldl_append

theorem perform_accepts (h : registry.Grounded) (id raw : String) :
    registry.perform (.accepts id raw) =
      (.verdict ((registry.meaning? id).map fun reader => (registry.asLeaf reader).accepts raw),
        (registry.resolve id).2) := by
  have hm := map_reader_resolve registry id
  simp only [perform]
  cases hr : registry.resolve id with
  | mk found after =>
    rw [hr] at hm
    cases found with
    | none =>
      rw [← hm]
      rfl
    | some entry =>
      rw [(h.found hr).1]
      simp only [h.accepts_found hr]
      rfl

theorem perform_parse (h : registry.Grounded) (id raw : String) :
    registry.perform (.parse id raw) =
      (.value ((registry.meaning? id).map fun reader => (registry.asLeaf reader).parse raw),
        (registry.resolve id).2) := by
  have hm := map_reader_resolve registry id
  simp only [perform]
  cases hr : registry.resolve id with
  | mk found after =>
    rw [hr] at hm
    cases found with
    | none =>
      rw [← hm]
      rfl
    | some entry =>
      rw [(h.found hr).1]
      simp only [h.parse_found hr]
      rfl

theorem perform_snd (h : registry.Grounded) (operation : Operation) :
    (∃ reader, operation = .register reader ∧
        (registry.perform operation).2 = registry.register reader) ∨
      ∃ id, operation.LooksUp id ∧ operation.isRegistration = false ∧
        (registry.perform operation).2 = (registry.resolve id).2 := by
  cases operation with
  | register reader => exact Or.inl ⟨reader, rfl, rfl⟩
  | resolve id => exact Or.inr ⟨id, rfl, rfl, rfl⟩
  | accepts id raw => exact Or.inr ⟨id, rfl, rfl, by rw [perform_accepts h]⟩
  | parse id raw => exact Or.inr ⟨id, rfl, rfl, by rw [perform_parse h]⟩

theorem Grounded.perform (h : registry.Grounded) (ho : operation.Grounded) :
    (registry.perform operation).2.Grounded := by
  rcases perform_snd h operation with ⟨reader, rfl, hp⟩ | ⟨id, _, _, hp⟩
  · rw [hp]
    exact h.register ho
  · rw [hp]
    exact h.resolve id

/-- What every operation of a history preserves, the history preserves. -/
theorem Grounded.run_induction {motive : Registry → Prop} (h : registry.Grounded)
    (hh : ∀ operation ∈ history, operation.Grounded) (hstart : motive registry)
    (hstep : ∀ operation ∈ history, ∀ {current : Registry}, current.Grounded → motive current →
      motive (current.perform operation).2) :
    motive (registry.run history) := by
  induction history generalizing registry with
  | nil => exact hstart
  | cons operation later ih =>
    rw [List.forall_mem_cons] at hh hstep
    exact ih (h.perform hh.1) hh.2 (hstep.1 h hstart) hstep.2

theorem Grounded.run (h : registry.Grounded) (hh : ∀ operation ∈ history, operation.Grounded) :
    (registry.run history).Grounded :=
  h.run_induction hh h fun operation ho _ hcurrent _ => hcurrent.perform (hh operation ho)

theorem meaning?_perform (h : registry.Grounded) (ho : operation.isRegistration = false) :
    (registry.perform operation).2.meaning? = registry.meaning? := by
  rcases perform_snd h operation with ⟨reader, rfl, _⟩ | ⟨id, _, _, hp⟩
  · cases ho
  · rw [hp, meaning?_resolve]

/-- The simulation: without its look-ups a history leads to a registry with the same meanings. -/
theorem meaning?_run_filter (h : registry.Grounded) (hm : registry.meaning? = other.meaning?)
    (hh : ∀ operation ∈ history, operation.Grounded) :
    (registry.run history).meaning? =
      (other.run (history.filter Operation.isRegistration)).meaning? := by
  induction history generalizing registry other with
  | nil => exact hm
  | cons operation later ih =>
    rw [List.forall_mem_cons] at hh
    have hnext := h.perform hh.1
    cases ho : operation.isRegistration with
    | true =>
      rw [List.filter_cons_of_pos ho, run_cons, run_cons]
      apply ih hnext _ hh.2
      cases operation with
      | register reader =>
        funext id
        simp only [perform, meaning?_register, hm]
      | resolve id => cases ho
      | accepts id raw => cases ho
      | parse id raw => cases ho
    | false =>
      rw [List.filter_cons_of_neg (by rw [ho]; exact Bool.false_ne_true), run_cons]
      exact ih hnext ((meaning?_perform h ho).trans hm) hh.2

theorem anonymous_perform_congr (h : registry.Grounded) (hother : other.Grounded)
    (hm : registry.meaning? = other.meaning?) (operation : Operation) :
    (registry.perform operation).1.anonymous = (other.perform operation).1.anonymous := by
  cases operation with
  | register reader => rfl
  | resolve id =>
    have hfound :
        (registry.resolve id).1.map Entry.reader = (other.resolve id).1.map Entry.reader := by
      rw [map_reader_resolve, map_reader_resolve, hm]
    have hnumbered := congrArg (Option.map (Entry.mk 0)) hfound
    rw [Option.map_map, Option.map_map] at hnumbered
    exact congrArg Answer.found hnumbered
  | accepts id raw => rw [perform_accepts h, perform_accepts hother, hm, asLeaf_congr hm]
  | parse id raw => rw [perform_parse h, perform_parse hother, hm, asLeaf_congr hm]

theorem getElem?_answers (registry : Registry) (history : List Operation) (i : Nat) :
    (registry.answers history)[i]? =
      history[i]?.map fun operation => ((registry.run (history.take i)).perform operation).1 := by
  induction history generalizing registry i with
  | nil => rfl
  | cons operation later ih =>
    cases i with
    | zero => rfl
    | succ i =>
      rw [answers, List.getElem?_cons_succ, ih, List.getElem?_cons_succ]
      rfl

theorem get?_perform_of_some (h : registry.Grounded) (he : registry.shelf.get? id = some entry)
    (ho : ¬ operation.Registers id) :
    (registry.perform operation).2.shelf.get? id = some entry := by
  rcases perform_snd h operation with ⟨reader, rfl, hp⟩ | ⟨own, _, _, hp⟩
  · have hid : id ≠ reader.id := fun heq => ho heq.symm
    rw [hp, get?_register, if_neg hid, he]
  · rw [hp, get?_resolve, if_neg _, he]
    rintro ⟨rfl, _, hnone⟩
    rw [he] at hnone
    cases hnone

theorem get?_perform_of_none (h : registry.Grounded) (he : registry.shelf.get? id = none)
    (ho : ¬ operation.Registers id) (hl : isUnionId id = true → ¬ operation.LooksUp id) :
    (registry.perform operation).2.shelf.get? id = none := by
  rcases perform_snd h operation with ⟨reader, rfl, hp⟩ | ⟨own, hown, _, hp⟩
  · have hid : id ≠ reader.id := fun heq => ho heq.symm
    rw [hp, get?_register, if_neg hid, he]
  · rw [hp, get?_resolve, if_neg _, he]
    rintro ⟨rfl, hu, _⟩
    exact hl hu hown

theorem get?_perform_of_looksUp (h : registry.Grounded) (he : registry.shelf.get? id = none)
    (hu : isUnionId id = true) (hl : operation.LooksUp id) :
    (registry.perform operation).2.shelf.get? id = some (registry.newEntry (.union id)) := by
  rcases perform_snd h operation with ⟨reader, rfl, _⟩ | ⟨own, hown, _, hp⟩
  · cases hl
  · cases hown.unique hl
    rw [hp, get?_resolve, if_pos ⟨rfl, hu, he⟩]

theorem contains_perform (h : registry.Grounded) (operation : Operation) (id : String) :
    (registry.perform operation).2.contains id = true ↔
      registry.contains id = true ∨ operation.Registers id ∨
        isUnionId id = true ∧ operation.LooksUp id := by
  by_cases ho : operation.Registers id
  · refine ⟨fun _ => Or.inr (Or.inl ho), fun _ => ?_⟩
    cases operation with
    | register reader =>
      cases ho
      simp [perform, contains, Dict.contains]
    | resolve own => cases ho
    | accepts own raw => cases ho
    | parse own raw => cases ho
  · cases he : registry.shelf.get? id with
    | some entry =>
      have hafter := get?_perform_of_some h he ho
      simp [contains, Dict.contains, he, hafter]
    | none =>
      by_cases hl : isUnionId id = true ∧ operation.LooksUp id
      · have hafter := get?_perform_of_looksUp h he hl.1 hl.2
        simp [contains, Dict.contains, hafter, hl]
      · have hafter := get?_perform_of_none h he ho fun hu hlook => hl ⟨hu, hlook⟩
        simp [contains, Dict.contains, he, hafter, ho, hl]

theorem get?_run_of_some (h : registry.Grounded) (he : registry.shelf.get? id = some entry)
    (hh : ∀ operation ∈ history, operation.Grounded)
    (ho : ∀ operation ∈ history, ¬ operation.Registers id) :
    (registry.run history).shelf.get? id = some entry := by
  apply h.run_induction (motive := fun current => current.shelf.get? id = some entry) hh he
  intro operation hmem current hcurrent he
  exact get?_perform_of_some hcurrent he (ho operation hmem)

theorem get?_run_of_none (h : registry.Grounded) (he : registry.shelf.get? id = none)
    (hh : ∀ operation ∈ history, operation.Grounded)
    (ho : ∀ operation ∈ history, ¬ operation.Registers id)
    (hl : isUnionId id = true → ∀ operation ∈ history, ¬ operation.LooksUp id) :
    (registry.run history).shelf.get? id = none := by
  apply h.run_induction (motive := fun current => current.shelf.get? id = none) hh he
  intro operation hmem current hcurrent he
  exact get?_perform_of_none hcurrent he (ho operation hmem) fun hu => hl hu operation hmem

theorem contains_run (h : registry.Grounded) (hh : ∀ operation ∈ history, operation.Grounded)
    (id : String) :
    (registry.run history).contains id = true ↔
      registry.contains id = true ∨ (∃ operation ∈ history, operation.Registers id) ∨
        isUnionId id = true ∧ ∃ operation ∈ history, operation.LooksUp id := by
  induction history generalizing registry with
  | nil => simp
  | cons operation later ih =>
    rw [List.forall_mem_cons] at hh
    rw [run_cons, ih (h.perform hh.1) hh.2, contains_perform h]
    rw [List.exists_mem_cons_iff, List.exists_mem_cons_iff, and_or_left, or_assoc, or_or_or_comm]

structure Numbered (registry : Registry) : Prop where
  lt : ∀ {id entry}, registry.shelf.get? id = some entry → entry.serial < registry.nextSerial
  inj : ∀ {id id' entry entry'}, registry.shelf.get? id = some entry →
    registry.shelf.get? id' = some entry' → entry.serial = entry'.serial → id = id'

theorem numbered_empty : empty.Numbered := by
  constructor
  · intro id entry he
    cases he
  · intro id id' entry entry' he
    cases he

theorem Numbered.store (h : registry.Numbered) (id : String) (reader : Reader) :
    (registry.store id reader).Numbered := by
  constructor
  · intro key entry he
    rw [get?_store] at he
    split at he
    · cases he
      exact Nat.lt_succ_self _
    · exact Nat.lt_succ_of_lt (h.lt he)
  · intro key key' entry entry' he he' hserial
    rw [get?_store] at he he'
    split at he <;> split at he'
    · next hk hk' => rw [hk, hk']
    · cases he
      exact absurd hserial.symm (Nat.ne_of_lt (h.lt he'))
    · cases he'
      exact absurd hserial (Nat.ne_of_lt (h.lt he))
    · exact h.inj he he' hserial

theorem Numbered.perform (h : registry.Numbered) (hg : registry.Grounded) (operation : Operation) :
    (registry.perform operation).2.Numbered := by
  rcases perform_snd hg operation with ⟨reader, rfl, hp⟩ | ⟨own, _, _, hp⟩
  · rw [hp]
    exact h.store reader.id reader
  · rw [hp, resolve_snd]
    split
    · exact h.store own (.union own)
    · exact h

theorem Numbered.run (h : registry.Numbered) (hg : registry.Grounded)
    (hh : ∀ operation ∈ history, operation.Grounded) : (registry.run history).Numbered :=
  hg.run_induction hh h fun operation _ _ hcurrent hn => hn.perform hcurrent operation

theorem shelf_resolve_of_union (hu : isUnionId id = true) (hc : registry.contains id = false) :
    (registry.resolve id).2.shelf = registry.shelf.insert id (registry.newEntry (.union id)) := by
  rw [resolve_snd, if_pos ⟨hu, Dict.contains_eq_false_iff.1 hc⟩]
  rfl

theorem contains_resolve_of_union (hu : isUnionId id = true) (hc : registry.contains id = false) :
    (registry.resolve id).2.contains id = true := by
  rw [contains, Dict.contains, shelf_resolve_of_union hu hc, Dict.get?_insert, if_pos rfl]
  rfl

theorem size_resolve_of_union (hu : isUnionId id = true) (hc : registry.contains id = false) :
    (registry.resolve id).2.size = registry.size + 1 := by
  rw [size, shelf_resolve_of_union hu hc, Dict.size_insert (Dict.contains_eq_false_iff.1 hc), size]

/-- Memoized unions show in no answer: each is the one that the registrations before it alone give,
up to the numbers of instances.  What the registry holds does show them. -/
theorem anonymous_answers {start : Registry} (h : start.Grounded) {history : List Operation}
    (hh : ∀ operation ∈ history, operation.Grounded) :
    (∀ i : Nat, (start.answers history)[i]?.map Answer.anonymous =
      history[i]?.map fun operation =>
        ((start.run ((history.take i).filter Operation.isRegistration)).perform
          operation).1.anonymous) ∧
    ∀ id, isUnionId id = true → start.contains id = false →
      (start.resolve id).2.contains id = true ∧ id ∈ (start.resolve id).2.ids ∧ id ∉ start.ids ∧
        (start.resolve id).2.size = start.size + 1 ∧ (start.resolve id).2.isEmpty = false := by
  refine ⟨fun i => ?_, fun id hu hc => ?_⟩
  · have hbefore : ∀ operation ∈ history.take i, operation.Grounded := fun operation ho =>
      hh operation (List.mem_of_mem_take ho)
    have hfilter : ∀ operation ∈ (history.take i).filter Operation.isRegistration,
        operation.Grounded := fun operation ho => hbefore operation (List.mem_of_mem_filter ho)
    rw [getElem?_answers, Option.map_map]
    congr 1
    funext operation
    exact anonymous_perform_congr (h.run hbefore) (h.run hfilter)
      (meaning?_run_filter h rfl hbefore) operation
  · have hadded := contains_resolve_of_union hu hc
    refine ⟨hadded, Dict.mem_keys_iff.2 hadded, ?_, size_resolve_of_union hu hc,
      Dict.isEmpty_eq_false_of_contains hadded⟩
    intro hmem
    exact absurd (Dict.mem_keys_iff.1 hmem) (Bool.eq_false_iff.1 hc)

theorem anonymous_answers_replaced_union :
    let start := withBuiltins ", "
    let history : List Operation :=
      [.resolve "int|boolean", .accepts "int|boolean" "on",
        .register (.leaf (.never "int|boolean")), .accepts "int|boolean" "on"]
    start.Grounded ∧ (∀ operation ∈ history, operation.Grounded) ∧
      (start.answers history)[1]?.map Answer.anonymous = some (.verdict (some true)) ∧
      (start.answers history)[3]?.map Answer.anonymous = some (.verdict (some false)) ∧
      (start.resolve "int|boolean").2.contains "int|boolean" = true := by
  intro start history
  have hstart : start.Grounded := grounded_withBuiltins ", "
  have hh : ∀ operation ∈ history, operation.Grounded := by decide
  obtain ⟨hanswers, hadded⟩ := anonymous_answers hstart hh
  refine ⟨hstart, hh, ?_, ?_, (hadded "int|boolean" rfl rfl).1⟩
  · rw [hanswers]
    rfl
  · rw [hanswers]
    rfl

/-- What a registry owes to the operations that led to it from the empty one. -/
structure Recounts (registry : Registry) (history : List Operation) : Prop where
  id_eq : ∀ id entry, registry.shelf.get? id = some entry → entry.reader.id = id
  instance_inj : ∀ id id' entry entry', registry.shelf.get? id = some entry →
    registry.shelf.get? id' = some entry' → entry.serial = entry'.serial → id = id'
  last_registration : ∀ before reader after, history = before ++ .register reader :: after →
    reader.id ≠ "" → (∀ operation ∈ after, ¬ operation.Registers reader.id) →
    (registry.resolve reader.id).1 = some ((empty.run before).newEntry reader)
  first_lookup : ∀ id before operation after, isUnionId id = true →
    (∀ operation ∈ history, ¬ operation.Registers id) →
    history ++ [.resolve id] = before ++ operation :: after → operation.LooksUp id →
    (∀ earlier ∈ before, ¬ earlier.LooksUp id) →
    (registry.resolve id).1 = some ((empty.run before).newEntry (.union id))
  unknown : ∀ id, isUnionId id = false → (∀ operation ∈ history, ¬ operation.Registers id) →
    (registry.resolve id).1 = none
  nameless : (registry.resolve "").1 = none
  plain_lookup : ∀ id, isUnionId id = false → (registry.resolve id).2 = registry
  later_lookup : ∀ id, registry.contains id = true → (registry.resolve id).2 = registry
  union_lookup : ∀ id, isUnionId id = true → registry.contains id = false →
    (registry.resolve id).2.shelf = registry.shelf.insert id (registry.newEntry (.union id)) ∧
      (registry.resolve id).2.size = registry.size + 1
  asking : ∀ (reader : Reader) (raw : String), reader.Grounded →
    (reader.accepts raw registry).2 = registry ∧ (reader.parse raw registry).2 = registry
  ids_sorted : registry.ids.Pairwise (· < ·)
  mem_ids_iff : ∀ id, id ∈ registry.ids ↔
    (∃ operation ∈ history, operation.Registers id) ∨
      isUnionId id = true ∧ ∃ operation ∈ history, operation.LooksUp id
  size_eq : registry.size = registry.ids.toFinset.card

theorem resolve_fst_of_last_registration {before after : List Operation} {reader : Reader}
    (hh : ∀ operation ∈ before ++ .register reader :: after, operation.Grounded)
    (hid : reader.id ≠ "") (hlast : ∀ operation ∈ after, ¬ operation.Registers reader.id) :
    ((empty.run (before ++ .register reader :: after)).resolve reader.id).1 =
      some ((empty.run before).newEntry reader) := by
  rw [List.forall_mem_append, List.forall_mem_cons] at hh
  have hbefore : (empty.run before).Grounded := grounded_empty.run hh.1
  have hstored : ((empty.run before).register reader).shelf.get? reader.id =
      some ((empty.run before).newEntry reader) := by
    rw [get?_register, if_pos rfl]
  have hkept := get?_run_of_some (hbefore.register hh.2.1) hstored hh.2.2 hlast
  rw [run_append, run_cons]
  exact congrArg Prod.fst (resolve_of_get? hid hkept)

theorem resolve_fst_of_first_lookup {before after : List Operation}
    (hh : ∀ operation ∈ history, operation.Grounded) (hu : isUnionId id = true)
    (hnever : ∀ operation ∈ history, ¬ operation.Registers id)
    (hsplit : history ++ [.resolve id] = before ++ operation :: after)
    (hl : operation.LooksUp id) (hfirst : ∀ earlier ∈ before, ¬ earlier.LooksUp id) :
    ((empty.run history).resolve id).1 = some ((empty.run before).newEntry (.union id)) := by
  have hall : ∀ next ∈ history ++ [.resolve id], next.Grounded ∧ ¬ next.Registers id := by
    rw [List.forall_mem_append, List.forall_mem_singleton]
    exact ⟨fun next hn => ⟨hh next hn, hnever next hn⟩, trivial, not_false⟩
  have hid : id ≠ "" := by
    rintro rfl
    cases hu
  have hrun : ((empty.run history).resolve id).2 = empty.run (history ++ [.resolve id]) := by
    rw [run_append]
    rfl
  -- With the present look-up at the end of the history, the first look-up is a step of it anyway.
  rw [hsplit, List.forall_mem_append, List.forall_mem_cons] at hall
  have hbefore : (empty.run before).Grounded :=
    grounded_empty.run fun next hn => (hall.1 next hn).1
  have hnone := get?_run_of_none grounded_empty (Dict.get?_empty id)
    (fun next hn => (hall.1 next hn).1) (fun next hn => (hall.1 next hn).2) fun _ => hfirst
  have hmade := get?_perform_of_looksUp hbefore hnone hu hl
  have hkept := get?_run_of_some (hbefore.perform hall.2.1.1) hmade
    (fun next hn => (hall.2.2 next hn).1) fun next hn => (hall.2.2 next hn).2
  rw [resolve_fst _ hid, hrun, hsplit, run_append, run_cons]
  exact hkept

/-- The registry after a history recounts it. -/
theorem recounts_run {history : List Operation} (hh : ∀ operation ∈ history, operation.Grounded) :
    (empty.run history).Recounts history := by
  have hg : (empty.run history).Grounded := grounded_empty.run hh
  have hn : (empty.run history).Numbered := numbered_empty.run grounded_empty hh
  constructor
  case id_eq => exact fun id entry he => hg.id_eq he
  case instance_inj => exact fun id id' entry entry' he he' hserial => hn.inj he he' hserial
  case last_registration =>
    intro before reader after hsplit hid hlast
    rw [hsplit] at hh ⊢
    exact resolve_fst_of_last_registration hh hid hlast
  case first_lookup =>
    intro id before operation after hu hnever hsplit hl hfirst
    exact resolve_fst_of_first_lookup hh hu hnever hsplit hl hfirst
  case unknown =>
    intro id hu hnever
    have hnone := get?_run_of_none grounded_empty (Dict.get?_empty id) hh hnever
      fun hunion => absurd hunion (Bool.eq_false_iff.1 hu)
    by_cases hid : id = ""
    · rw [hid, resolve_empty_id]
    · rw [resolve_fst _ hid, resolve_snd_of_not_union _ hu, hnone]
  case nameless => rfl
  case plain_lookup => exact fun id hu => resolve_snd_of_not_union _ hu
  case later_lookup =>
    intro id hc
    rw [resolve_snd, if_neg]
    rintro ⟨_, hnone⟩
    rw [contains, Dict.contains, hnone] at hc
    cases hc
  case union_lookup =>
    exact fun id hu hc => ⟨shelf_resolve_of_union hu hc, size_resolve_of_union hu hc⟩
  case asking =>
    intro reader raw hr
    rw [Reader.accepts_grounded hg hr, Reader.parse_grounded hg hr]
    exact ⟨rfl, rfl⟩
  case ids_sorted => exact ids_sorted _
  case mem_ids_iff =>
    intro id
    have hempty : ¬ empty.contains id = true := Bool.false_ne_true
    rw [ids, Dict.mem_keys_iff]
    exact (contains_run grounded_empty hh id).trans (or_iff_right hempty)
  case size_eq =>
    rw [ids, List.toFinset_card_of_nodup (Dict.nodup_keys _)]
    exact (List.length_map ..).symm

theorem recounts_run_unions :
    let history : List Operation :=
      [.register (.leaf .int), .accepts "int|flag" "7", .resolve "flag|int",
        .register (.leaf (.never "int|flag")), .resolve "flag|int"]
    (∀ operation ∈ history, operation.Grounded) ∧ (empty.run history).Recounts history ∧
      ((empty.run history).resolve "int|flag").1 = some ⟨3, .leaf (.never "int|flag")⟩ ∧
      ((empty.run history).resolve "flag|int").1 = some ⟨2, .union "flag|int"⟩ := by
  intro history
  have hh : ∀ operation ∈ history, operation.Grounded := by decide
  have hrecounts := recounts_run hh
  refine ⟨hh, hrecounts, ?_, ?_⟩
  · apply hrecounts.last_registration (history.take 3) (.leaf (.never "int|flag"))
      (history.drop 4) rfl
    · decide
    · simp [history, Operation.Registers]
  · apply hrecounts.first_lookup "flag|int" (history.take 2) (.resolve "flag|int")
      (history.drop 3 ++ [.resolve "flag|int"]) rfl
    · simp [history, Operation.Registers, Reader.id, Leaf.int, Leaf.never]
    · rfl
    · rfl
    · simp [history, Operation.LooksUp]

end Registry

end TypedEnv
