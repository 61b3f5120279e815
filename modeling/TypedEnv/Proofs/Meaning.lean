import TypedEnv.Proofs.Dict
import TypedEnv.Proofs.Text
import TypedEnv.Registry

/-!
What ids mean.  The meaning of an id is the reader that a look-up finds, said without the union that
the look-up may store; no look-up changes a meaning.  Among grounded readers, leaves and unions of
other ids, every reader answers as one leaf does, and asking it leaves the registry alone.
-/

namespace TypedEnv

namespace Reader

/-- Readers whose questions end at leaves: leaves, and unions whose expression has a separator. -/
def Grounded : Reader → Prop
  | leaf _ => True
  | union expression => isUnionId expression = true
  | redirect _ _ => False

instance : (reader : Reader) → Decidable reader.Grounded
  | leaf _ => .isTrue trivial
  | union expression => inferInstanceAs (Decidable (isUnionId expression = true))
  | redirect _ _ => .isFalse not_false

def leaf? : Reader → Option Leaf
  | leaf own => some own
  | _ => none

end Reader

def Leaf.choice (id : String) (leaves : List Leaf) : Leaf where
  id := id
  accepts raw := leaves.any (·.accepts raw)
  parse raw := match leaves.find? (·.accepts raw) with
    | some own => own.parse raw
    | none => .string raw

theorem isUnionId_of_mem_unionMembers {expression member : String}
    (h : member ∈ unionMembers expression) : isUnionId member = false := by
  obtain ⟨piece, hpiece, rfl⟩ := List.mem_map.1 h
  rw [isUnionId, String.toList_ofList, ← Bool.not_eq_true, List.contains_iff_mem]
  intro hmark
  have hfalse := Text.eq_false_of_mem_splitWhere hpiece (Text.mem_of_mem_trim hmark)
  exact absurd (beq_self_eq_true unionMark) (Bool.eq_false_iff.1 hfalse)

theorem isUnionId_empty : isUnionId "" = false := rfl

namespace Registry

structure Grounded (registry : Registry) : Prop where
  reader : ∀ {id entry}, registry.shelf.get? id = some entry → entry.reader.Grounded
  id_eq : ∀ {id entry}, registry.shelf.get? id = some entry → entry.reader.id = id

def newEntry (registry : Registry) (reader : Reader) : Entry := ⟨registry.nextSerial, reader⟩

/-- The reader that an id stands for, whether or not a look-up has stored it. -/
def meaning? (registry : Registry) (id : String) : Option Reader :=
  if id = "" then none
  else ((registry.shelf.get? id).map Entry.reader).or
    (if isUnionId id then some (.union id) else none)

def leaves (registry : Registry) (expression : String) : List Leaf :=
  (unionMembers expression).filterMap fun id => registry.meaning? id >>= Reader.leaf?

/-- The leaf that answers as a grounded reader does. -/
def asLeaf (registry : Registry) : Reader → Leaf
  | .leaf own => own
  | .union expression => .choice expression (registry.leaves expression)
  | .redirect name _ => .never name

variable {registry other : Registry} {id : String} {reader : Reader} {entry : Entry}

@[simp] theorem get?_store (registry : Registry) (key id : String) (reader : Reader) :
    (registry.store key reader).shelf.get? id =
      if id = key then some (registry.newEntry reader) else registry.shelf.get? id :=
  Dict.get?_insert registry.shelf key id _

@[simp] theorem get?_register (registry : Registry) (reader : Reader) (id : String) :
    (registry.register reader).shelf.get? id =
      if id = reader.id then some (registry.newEntry reader) else registry.shelf.get? id :=
  get?_store registry reader.id id reader

theorem Grounded.store (h : registry.Grounded) (hr : reader.Grounded) :
    (registry.store reader.id reader).Grounded := by
  constructor
  · intro id entry he
    rw [get?_store] at he
    split at he
    · cases he
      exact hr
    · exact h.reader he
  · intro id entry he
    rw [get?_store] at he
    split at he
    · next hid =>
      cases he
      exact hid.symm
    · exact h.id_eq he

theorem grounded_empty : Registry.empty.Grounded := by
  constructor
  · intro id entry he
    cases he
  · intro id entry he
    cases he

theorem Grounded.register (h : registry.Grounded) (hr : reader.Grounded) :
    (registry.register reader).Grounded := h.store hr

theorem Grounded.registerAll (h : registry.Grounded) {readers : List Reader}
    (hr : ∀ reader ∈ readers, reader.Grounded) : (registry.registerAll readers).Grounded := by
  induction readers generalizing registry with
  | nil => exact h
  | cons reader readers ih =>
    exact ih (h.register (hr reader List.mem_cons_self))
      fun later hl => hr later (List.mem_cons_of_mem reader hl)

theorem grounded_withBuiltins (delimiter : String) : (withBuiltins delimiter).Grounded := by
  apply grounded_empty.registerAll
  intro reader hr
  obtain ⟨own, _, rfl⟩ := List.mem_map.1 hr
  trivial

theorem map_reader_registerAll (registry : Registry) (readers : List Reader) (id : String) :
    ((registry.registerAll readers).shelf.get? id).map Entry.reader =
      (readers.reverse.find? (·.id == id)).or ((registry.shelf.get? id).map Entry.reader) := by
  induction readers generalizing registry with
  | nil => rfl
  | cons reader later ih =>
    have hnext : (registry.registerAll (reader :: later)) =
        (registry.register reader).registerAll later := rfl
    rw [hnext, ih, get?_register, List.reverse_cons, List.find?_append]
    cases List.find? (·.id == id) later.reverse with
    | some last => rfl
    | none =>
      by_cases hid : id = reader.id
      · rw [if_pos hid, hid]
        simp [newEntry]
      · rw [if_neg hid]
        simp [Ne.symm hid]

theorem resolve_snd (registry : Registry) (id : String) :
    (registry.resolve id).2 =
      if isUnionId id = true ∧ registry.shelf.get? id = none then registry.store id (.union id)
      else registry := by
  unfold resolve
  split
  · next hid =>
    rw [hid, if_neg (by rw [isUnionId_empty]; simp)]
  · split
    · next he => rw [if_neg (by rw [he]; simp)]
    · next he =>
      split
      · next hu => rw [if_pos ⟨hu, he⟩]
      · next hu => rw [if_neg fun h => hu h.1]

theorem get?_resolve (registry : Registry) (id key : String) :
    (registry.resolve id).2.shelf.get? key =
      if key = id ∧ isUnionId id = true ∧ registry.shelf.get? id = none then
        some (registry.newEntry (.union id))
      else registry.shelf.get? key := by
  rw [resolve_snd]
  split
  · next h => simp [h]
  · next h => rw [if_neg fun hk => h hk.2]

theorem resolve_of_get? (hid : id ≠ "") (he : registry.shelf.get? id = some entry) :
    registry.resolve id = (some entry, registry) := by
  rw [resolve, if_neg hid, he]

theorem resolve_fst (registry : Registry) (hid : id ≠ "") :
    (registry.resolve id).1 = (registry.resolve id).2.shelf.get? id := by
  unfold resolve
  rw [if_neg hid]
  split
  · next he => exact he.symm
  · next he =>
    split
    · rw [get?_store, if_pos rfl]
      rfl
    · exact he.symm

theorem map_reader_resolve (registry : Registry) (id : String) :
    (registry.resolve id).1.map Entry.reader = registry.meaning? id := by
  unfold resolve meaning?
  split
  · rfl
  · cases registry.shelf.get? id with
    | some entry => rfl
    | none =>
      dsimp only
      split <;> rfl

/-- No look-up changes what ids mean. -/
@[simp] theorem meaning?_resolve (registry : Registry) (id : String) :
    (registry.resolve id).2.meaning? = registry.meaning? := by
  rw [resolve_snd]
  split
  · next h =>
    funext other
    unfold meaning?
    rw [get?_store]
    by_cases ho : other = id
    · rw [if_pos ho, ho, h.1, h.2]
      rfl
    · rw [if_neg ho]
  · rfl

theorem meaning?_register (registry : Registry) (reader : Reader) (id : String) :
    (registry.register reader).meaning? id =
      if id ≠ "" ∧ id = reader.id then some reader else registry.meaning? id := by
  unfold meaning?
  rw [get?_register]
  by_cases hid : id = ""
  · simp [hid]
  · by_cases hr : id = reader.id
    · have hboth : id ≠ "" ∧ id = reader.id := ⟨hid, hr⟩
      rw [if_neg hid, if_pos hr, if_pos hboth]
      rfl
    · have hnot : ¬ (id ≠ "" ∧ id = reader.id) := fun h => hr h.2
      rw [if_neg hr, if_neg hnot]

theorem Grounded.resolve (h : registry.Grounded) (id : String) :
    (registry.resolve id).2.Grounded := by
  rw [resolve_snd]
  split
  · next hu => exact h.store (show Reader.Grounded (.union id) from hu.1)
  · exact h

theorem entry_or_union_of_meaning? (hm : registry.meaning? id = some reader) :
    (∃ serial, registry.shelf.get? id = some ⟨serial, reader⟩) ∨
      isUnionId id = true ∧ reader = .union id := by
  unfold meaning? at hm
  split at hm
  · cases hm
  · cases he : registry.shelf.get? id with
    | some entry =>
      rw [he] at hm
      cases hm
      exact Or.inl ⟨entry.serial, rfl⟩
    | none =>
      rw [he] at hm
      dsimp only [Option.map_none, Option.none_or] at hm
      split at hm
      · next hu =>
        cases hm
        exact Or.inr ⟨hu, rfl⟩
      · cases hm

theorem Grounded.reader_of_meaning? (h : registry.Grounded)
    (hm : registry.meaning? id = some reader) : reader.Grounded ∧ reader.id = id := by
  rcases entry_or_union_of_meaning? hm with ⟨serial, he⟩ | ⟨hu, rfl⟩
  · exact ⟨h.reader he, h.id_eq he⟩
  · exact ⟨hu, rfl⟩

theorem asLeaf_congr (h : registry.meaning? = other.meaning?) : registry.asLeaf = other.asLeaf := by
  funext reader
  cases reader with
  | leaf own => rfl
  | union expression => rw [asLeaf, asLeaf, leaves, leaves, h]
  | redirect name target => rfl

theorem Grounded.resolve_plain (h : registry.Grounded) (hu : isUnionId id = false) :
    (registry.resolve id = (none, registry) ∧ registry.meaning? id = none) ∨
      ∃ serial own, registry.resolve id = (some ⟨serial, .leaf own⟩, registry) ∧
        registry.meaning? id = some (.leaf own) := by
  have hsnd := resolve_snd_of_not_union registry hu
  have hmeaning := map_reader_resolve registry id
  cases hr : registry.resolve id with
  | mk found after =>
    rw [hr] at hsnd hmeaning
    cases hsnd
    cases found with
    | none => exact Or.inl ⟨rfl, hmeaning.symm⟩
    | some entry =>
      obtain ⟨serial, reader⟩ := entry
      obtain ⟨hg, hid⟩ := h.reader_of_meaning? hmeaning.symm
      cases reader with
      | leaf own => exact Or.inr ⟨serial, own, rfl, hmeaning.symm⟩
      | union expression =>
        cases hid
        exact absurd hg (Bool.eq_false_iff.1 hu)
      | redirect name target => cases hg

end Registry

namespace Reader

variable {registry : Registry} {reader : Reader}

@[simp] theorem acceptsWithin_leaf (raw : String) (hops : Nat) (own : Leaf) (registry : Registry) :
    acceptsWithin raw hops (leaf own) registry = (own.accepts raw, registry) := by
  cases hops <;> rfl

@[simp] theorem parseWithin_leaf (raw : String) (hops : Nat) (own : Leaf) (registry : Registry) :
    parseWithin raw hops (leaf own) registry = (own.parse raw, registry) := by
  cases hops <;> rfl

theorem firstPassing_plain (h : registry.Grounded) (raw : String) (hops : Nat) {ids : List String}
    (hids : ∀ id ∈ ids, isUnionId id = false) :
    firstPassing (acceptsWithin raw hops) ids registry =
      (((ids.filterMap fun id => registry.meaning? id >>= leaf?).find? (·.accepts raw)).map leaf,
        registry) := by
  induction ids with
  | nil => rfl
  | cons id ids ih =>
    have hrest := ih fun later hl => hids later (List.mem_cons_of_mem id hl)
    rcases h.resolve_plain (hids id List.mem_cons_self) with ⟨hr, hm⟩ | ⟨serial, own, hr, hm⟩
    · simp only [firstPassing, hr, hrest]
      rw [List.filterMap_cons_none (by rw [hm]; rfl)]
    · simp only [firstPassing, hr, acceptsWithin_leaf]
      rw [List.filterMap_cons_some (by rw [hm]; rfl), List.find?_cons]
      cases own.accepts raw with
      | true => rfl
      | false => exact hrest

theorem firstPassing_members (h : registry.Grounded) (raw : String) (hops : Nat)
    (expression : String) :
    firstPassing (acceptsWithin raw hops) (unionMembers expression) registry =
      (((registry.leaves expression).find? (·.accepts raw)).map leaf, registry) :=
  firstPassing_plain h raw hops fun _ hm => isUnionId_of_mem_unionMembers hm

/-- A union answers as its leaf does, whether or not its expression has a separator, and stores
nothing. -/
theorem accepts_union (h : registry.Grounded) (expression raw : String) :
    (union expression).accepts raw registry =
      ((registry.asLeaf (.union expression)).accepts raw, registry) := by
  simp only [accepts, hops, acceptsWithin, firstPassing_members h]
  rw [Option.isSome_map, List.isSome_find?]
  rfl

theorem parse_union (h : registry.Grounded) (expression raw : String) :
    (union expression).parse raw registry =
      ((registry.asLeaf (.union expression)).parse raw, registry) := by
  simp only [parse, hops, parseWithin, firstPassing_members h, Registry.asLeaf, Leaf.choice]
  cases (registry.leaves expression).find? (·.accepts raw) with
  | none => rfl
  | some own => exact parseWithin_leaf raw _ own registry

theorem accepts_grounded (h : registry.Grounded) (hr : reader.Grounded) (raw : String) :
    reader.accepts raw registry = ((registry.asLeaf reader).accepts raw, registry) := by
  cases reader with
  | leaf own => exact accepts_leaf own raw registry
  | union expression => exact accepts_union h expression raw
  | redirect name target => cases hr

theorem parse_grounded (h : registry.Grounded) (hr : reader.Grounded) (raw : String) :
    reader.parse raw registry = ((registry.asLeaf reader).parse raw, registry) := by
  cases reader with
  | leaf own => exact parse_leaf own raw registry
  | union expression => exact parse_union h expression raw
  | redirect name target => cases hr

end Reader

namespace Registry

variable {registry after : Registry} {id : String} {entry : Entry}

theorem Grounded.found (h : registry.Grounded) (hr : registry.resolve id = (some entry, after)) :
    registry.meaning? id = some entry.reader ∧ after.Grounded ∧ entry.reader.Grounded ∧
      after.asLeaf = registry.asLeaf := by
  have hm := map_reader_resolve registry id
  have hg := h.resolve id
  have hl := asLeaf_congr (meaning?_resolve registry id)
  rw [hr] at hm hg hl
  exact ⟨hm.symm, hg, (h.reader_of_meaning? hm.symm).1, hl⟩

theorem Grounded.accepts_found (h : registry.Grounded)
    (hr : registry.resolve id = (some entry, after)) (raw : String) :
    entry.reader.accepts raw after = ((registry.asLeaf entry.reader).accepts raw, after) := by
  obtain ⟨_, ha, he, hl⟩ := h.found hr
  rw [Reader.accepts_grounded ha he, hl]

theorem Grounded.parse_found (h : registry.Grounded)
    (hr : registry.resolve id = (some entry, after)) (raw : String) :
    entry.reader.parse raw after = ((registry.asLeaf entry.reader).parse raw, after) := by
  obtain ⟨_, ha, he, hl⟩ := h.found hr
  rw [Reader.parse_grounded ha he, hl]

end Registry

end TypedEnv
