import Mathlib.Data.List.Basic
import TypedEnv.Proofs.Meaning

/-!
Unions as ordered choices.  A union accepts what one of its members accepts and gives the value of
the leftmost one that does, so joining two expressions tries the first and then the second.  Members
without a reader, blanks around members and later repetitions of a member make no difference.
-/

namespace TypedEnv

open TypedEnv.Text

namespace Registry

def unionAccepts (registry : Registry) (expression raw : String) : Bool :=
  ((Reader.union expression).accepts raw registry).1

def unionValue (registry : Registry) (expression raw : String) : Document :=
  ((Reader.union expression).parse raw registry).1

def hasReader (registry : Registry) (id : String) : Bool := (registry.resolve id).1.isSome

def Passes (registry : Registry) (id raw : String) : Prop :=
  ∃ entry, (registry.resolve id).1 = some entry ∧ (entry.reader.accepts raw registry).1 = true

def SameChoice (registry : Registry) (expression other : String) : Prop :=
  ∀ raw, registry.unionAccepts expression raw = registry.unionAccepts other raw ∧
    registry.unionValue expression raw = registry.unionValue other raw

/-- The unions of all expressions choose among their members in order. -/
structure Chooses (registry : Registry) : Prop where
  members_append : ∀ left right,
    unionMembers (left ++ "|" ++ right) = unionMembers left ++ unionMembers right
  accepts_append : ∀ left right raw, registry.unionAccepts (left ++ "|" ++ right) raw = true ↔
    registry.unionAccepts left raw = true ∨ registry.unionAccepts right raw = true
  value_append : ∀ left right raw, registry.unionValue (left ++ "|" ++ right) raw =
    if registry.unionAccepts left raw then registry.unionValue left raw
    else registry.unionValue right raw
  accepts_iff : ∀ expression raw, registry.unionAccepts expression raw = true ↔
    ∃ member ∈ unionMembers expression, registry.Passes member raw
  leftmost : ∀ expression raw before member after entry,
    unionMembers expression = before ++ member :: after →
    (∀ earlier ∈ before, ¬ registry.Passes earlier raw) →
    (registry.resolve member).1 = some entry → (entry.reader.accepts raw registry).1 = true →
    registry.unionValue expression raw = (entry.reader.parse raw registry).1
  refused : ∀ expression raw, registry.unionAccepts expression raw = false →
    registry.unionValue expression raw = .string raw
  nameless : registry.hasReader "" = false
  unreadable : ∀ expression other,
    (unionMembers expression).filter registry.hasReader =
      (unionMembers other).filter registry.hasReader → registry.SameChoice expression other
  repeated : ∀ expression other before member between after,
    unionMembers expression = before ++ member :: between ++ member :: after →
    unionMembers other = before ++ member :: between ++ after →
    registry.SameChoice expression other
  blanks : ∀ members : List (String × String × String),
    (∀ member ∈ members, isUnionId member.2.1 = false ∧
      (∀ c ∈ member.1.toList, isBlank c = true) ∧ ∀ c ∈ member.2.2.toList, isBlank c = true) →
    registry.SameChoice (join "|" (members.map fun member => member.1 ++ member.2.1 ++ member.2.2))
      (join "|" (members.map fun member => member.2.1))
  unchanged : ∀ expression raw, ((Reader.union expression).accepts raw registry).2 = registry ∧
    ((Reader.union expression).parse raw registry).2 = registry

end Registry

variable {registry : Registry} {expression other id member raw : String}

theorem unionMembers_append (left right : String) :
    unionMembers (left ++ "|" ++ right) = unionMembers left ++ unionMembers right := by
  have htext : (left ++ "|" ++ right).toList = left.toList ++ unionMark :: right.toList := by
    rw [String.toList_append, String.toList_append, List.append_assoc]
    rfl
  have hmark : (unionMark == unionMark) = true := beq_self_eq_true unionMark
  rw [unionMembers, htext, splitWhere_append_cons (p := (· == unionMark)) hmark, List.map_append]
  rfl

theorem unionMembers_join {ids : List String} (hne : ids ≠ [])
    (hids : ∀ id ∈ ids, isUnionId id = false) : unionMembers (join "|" ids) = ids.map trimmed := by
  have htext : (join "|" ids).toList = [unionMark].intercalate (ids.map String.toList) :=
    toList_join "|" ids
  have hplain : ∀ piece ∈ ids.map String.toList, ∀ c ∈ piece, (c == unionMark) = false := by
    intro piece hpiece c hc
    obtain ⟨id, hid, rfl⟩ := List.mem_map.1 hpiece
    apply beq_eq_false_iff_ne.2
    rintro rfl
    exact Bool.eq_false_iff.1 (hids id hid) (List.contains_iff_mem.2 hc)
  have hmark : (unionMark == unionMark) = true := beq_self_eq_true unionMark
  rw [unionMembers, htext, splitWhere_intercalate (p := (· == unionMark)) hmark
    (mt List.map_eq_nil_iff.1 hne) hplain, List.map_map]
  rfl

theorem isUnionId_eq_false_of_blank (h : ∀ c ∈ id.toList, isBlank c = true) :
    isUnionId id = false := by
  rw [isUnionId, ← Bool.not_eq_true, List.contains_iff_mem]
  intro hmark
  exact absurd (h unionMark hmark) (by decide)

theorem trimmed_padded {before after : String} (hbefore : ∀ c ∈ before.toList, isBlank c = true)
    (hafter : ∀ c ∈ after.toList, isBlank c = true) :
    trimmed (before ++ id ++ after) = trimmed id := by
  rw [trimmed, String.toList_append, String.toList_append, trim_padded hbefore hafter, trimmed]

namespace Registry

def leafNamed? (registry : Registry) (id : String) : Option Leaf :=
  registry.meaning? id >>= Reader.leaf?

/-- The leaf of the leftmost member that accepts a raw text. -/
def choice? (registry : Registry) (expression raw : String) : Option Leaf :=
  (registry.leaves expression).find? (·.accepts raw)

theorem leaves_eq (registry : Registry) (expression : String) :
    registry.leaves expression = (unionMembers expression).filterMap registry.leafNamed? := rfl

theorem Grounded.unionAccepts_eq (h : registry.Grounded) (expression raw : String) :
    registry.unionAccepts expression raw = (registry.choice? expression raw).isSome := by
  rw [unionAccepts, Reader.accepts_union h, choice?, List.isSome_find?]
  rfl

theorem Grounded.unionValue_eq (h : registry.Grounded) (expression raw : String) :
    registry.unionValue expression raw =
      ((registry.choice? expression raw).map (·.parse raw)).getD (.string raw) := by
  rw [unionValue, Reader.parse_union h, choice?, asLeaf, Leaf.choice]
  dsimp only
  cases (registry.leaves expression).find? (·.accepts raw) <;> rfl

theorem Grounded.sameChoice (h : registry.Grounded)
    (hchoice : ∀ raw, registry.choice? expression raw = registry.choice? other raw) :
    registry.SameChoice expression other := by
  intro raw
  rw [h.unionAccepts_eq, h.unionAccepts_eq, h.unionValue_eq, h.unionValue_eq, hchoice]
  exact ⟨rfl, rfl⟩

theorem choice?_append (registry : Registry) (left right raw : String) :
    registry.choice? (left ++ "|" ++ right) raw =
      (registry.choice? left raw).or (registry.choice? right raw) := by
  rw [choice?, leaves_eq, unionMembers_append, List.filterMap_append, List.find?_append]
  rfl

theorem hasReader_eq (registry : Registry) (id : String) :
    registry.hasReader id = (registry.meaning? id).isSome := by
  rw [hasReader, ← map_reader_resolve, Option.isSome_map]

theorem leaves_eq_filter (registry : Registry) (expression : String) :
    registry.leaves expression =
      ((unionMembers expression).filter registry.hasReader).filterMap registry.leafNamed? := by
  rw [leaves_eq, List.filterMap_filter]
  apply List.filterMap_congr
  intro id _
  rw [leafNamed?]
  cases hm : registry.meaning? id with
  | none =>
    rw [hasReader_eq, hm]
    rfl
  | some reader =>
    rw [hasReader_eq, hm]
    rfl

theorem find?_repeated {α : Type} (p : α → Bool) (before between after : List α) (a : α) :
    (before ++ a :: between ++ a :: after).find? p = (before ++ a :: between ++ after).find? p := by
  cases ha : p a <;> simp [List.find?_append, ha]

theorem Grounded.passes_iff (h : registry.Grounded) (hid : isUnionId id = false) :
    registry.Passes id raw ↔ ∃ own, registry.leafNamed? id = some own ∧ own.accepts raw = true := by
  unfold Passes leafNamed?
  rcases h.resolve_plain hid with ⟨hr, hm⟩ | ⟨serial, own, hr, hm⟩
  · rw [hr, hm]
    simp
  · rw [hr, hm]
    simp [Reader.leaf?]

theorem Grounded.choice?_isSome_iff (h : registry.Grounded) :
    (registry.choice? expression raw).isSome = true ↔
      ∃ member ∈ unionMembers expression, registry.Passes member raw := by
  rw [choice?, List.isSome_find?, List.any_eq_true]
  constructor
  · rintro ⟨own, hown, haccepts⟩
    obtain ⟨member, hmem, hleaf⟩ := List.mem_filterMap.1 hown
    exact ⟨member, hmem,
      (h.passes_iff (isUnionId_of_mem_unionMembers hmem)).2 ⟨own, hleaf, haccepts⟩⟩
  · rintro ⟨member, hmem, hpasses⟩
    obtain ⟨own, hleaf, haccepts⟩ :=
      (h.passes_iff (isUnionId_of_mem_unionMembers hmem)).1 hpasses
    exact ⟨own, List.mem_filterMap.2 ⟨member, hmem, hleaf⟩, haccepts⟩

theorem Grounded.choice?_of_leftmost (h : registry.Grounded) {before after : List String}
    {own : Leaf} (hmembers : unionMembers expression = before ++ member :: after)
    (hbefore : ∀ earlier ∈ before, ¬ registry.Passes earlier raw)
    (hleaf : registry.leafNamed? member = some own) (haccepts : own.accepts raw = true) :
    registry.choice? expression raw = some own := by
  have hplain : ∀ earlier ∈ before, isUnionId earlier = false := by
    intro earlier he
    have hmem : earlier ∈ unionMembers expression := by
      rw [hmembers]
      exact List.mem_append_left _ he
    exact isUnionId_of_mem_unionMembers hmem
  have hnone : (before.filterMap registry.leafNamed?).find? (·.accepts raw) = none := by
    rw [List.find?_eq_none]
    intro earlierLeaf hmem haccepts
    obtain ⟨earlier, he, hearlier⟩ := List.mem_filterMap.1 hmem
    apply hbefore earlier he
    exact (h.passes_iff (hplain earlier he)).2 ⟨earlierLeaf, hearlier, haccepts⟩
  have hleaves : registry.leaves expression =
      before.filterMap registry.leafNamed? ++ own :: after.filterMap registry.leafNamed? := by
    rw [leaves_eq, hmembers, List.filterMap_append, List.filterMap_cons_some hleaf]
  rw [choice?, hleaves, List.find?_append, hnone, Option.none_or, List.find?_cons, haccepts]

theorem Grounded.unionValue_of_leftmost (h : registry.Grounded) {before after : List String}
    {entry : Entry} (hmembers : unionMembers expression = before ++ member :: after)
    (hbefore : ∀ earlier ∈ before, ¬ registry.Passes earlier raw)
    (hresolve : (registry.resolve member).1 = some entry)
    (haccepts : (entry.reader.accepts raw registry).1 = true) :
    registry.unionValue expression raw = (entry.reader.parse raw registry).1 := by
  have hmem : member ∈ unionMembers expression := by
    rw [hmembers]
    exact List.mem_append_right _ List.mem_cons_self
  rcases h.resolve_plain (isUnionId_of_mem_unionMembers hmem) with ⟨hr, _⟩ | ⟨serial, own, hr, hm⟩
  · rw [hr] at hresolve
    cases hresolve
  · rw [hr] at hresolve
    cases hresolve
    have hleaf : registry.leafNamed? member = some own := by
      rw [leafNamed?, hm]
      rfl
    rw [Reader.accepts_leaf] at haccepts
    rw [h.unionValue_eq, h.choice?_of_leftmost hmembers hbefore hleaf haccepts, Reader.parse_leaf]
    rfl

theorem SameChoice.refl (registry : Registry) (expression : String) :
    registry.SameChoice expression expression := fun _ => ⟨rfl, rfl⟩

theorem Grounded.sameChoice_of_members (h : registry.Grounded)
    (hmembers : unionMembers expression = unionMembers other) :
    registry.SameChoice expression other := by
  apply h.sameChoice
  intro raw
  rw [choice?, choice?, leaves_eq, leaves_eq, hmembers]

theorem Grounded.sameChoice_blanks (h : registry.Grounded)
    {members : List (String × String × String)}
    (hmembers : ∀ member ∈ members, isUnionId member.2.1 = false ∧
      (∀ c ∈ member.1.toList, isBlank c = true) ∧ ∀ c ∈ member.2.2.toList, isBlank c = true) :
    registry.SameChoice (join "|" (members.map fun member => member.1 ++ member.2.1 ++ member.2.2))
      (join "|" (members.map fun member => member.2.1)) := by
  by_cases hne : members = []
  · rw [hne]
    exact .refl registry _
  · apply h.sameChoice_of_members
    rw [unionMembers_join (mt List.map_eq_nil_iff.1 hne), unionMembers_join
      (mt List.map_eq_nil_iff.1 hne), List.map_map, List.map_map]
    · apply List.map_congr_left
      intro member hmem
      obtain ⟨_, hbefore, hafter⟩ := hmembers member hmem
      exact trimmed_padded hbefore hafter
    · intro id hid
      obtain ⟨member, hmem, rfl⟩ := List.mem_map.1 hid
      exact (hmembers member hmem).1
    · intro id hid
      obtain ⟨member, hmem, rfl⟩ := List.mem_map.1 hid
      obtain ⟨hplain, hbefore, hafter⟩ := hmembers member hmem
      have hbeforePlain := isUnionId_eq_false_of_blank hbefore
      have hafterPlain := isUnionId_eq_false_of_blank hafter
      rw [isUnionId] at hplain hbeforePlain hafterPlain ⊢
      rw [String.toList_append, String.toList_append, List.contains_append, List.contains_append,
        hplain, hbeforePlain, hafterPlain]
      rfl

theorem chooses_of_grounded {registry : Registry} (h : registry.Grounded) : registry.Chooses := by
  constructor
  case members_append => exact unionMembers_append
  case accepts_append =>
    intro left right raw
    rw [h.unionAccepts_eq, h.unionAccepts_eq, h.unionAccepts_eq, choice?_append, Option.isSome_or,
      Bool.or_eq_true]
  case value_append =>
    intro left right raw
    rw [h.unionValue_eq, h.unionValue_eq, h.unionValue_eq, h.unionAccepts_eq, choice?_append]
    cases registry.choice? left raw <;> rfl
  case accepts_iff =>
    intro expression raw
    rw [h.unionAccepts_eq, h.choice?_isSome_iff]
  case leftmost =>
    intro expression raw before member after entry hmembers hbefore hresolve haccepts
    exact h.unionValue_of_leftmost hmembers hbefore hresolve haccepts
  case refused =>
    intro expression raw hrefused
    rw [h.unionAccepts_eq, Option.isSome_eq_false_iff, Option.isNone_iff_eq_none] at hrefused
    rw [h.unionValue_eq, hrefused]
    rfl
  case nameless => rfl
  case unreadable =>
    intro expression other hfilter
    apply h.sameChoice
    intro raw
    rw [choice?, choice?, leaves_eq_filter, leaves_eq_filter, hfilter]
  case repeated =>
    intro expression other before member between after hmembers hother
    apply h.sameChoice
    intro raw
    rw [choice?, choice?, leaves_eq, leaves_eq, hmembers, hother, List.find?_filterMap,
      List.find?_filterMap, find?_repeated]
  case blanks => exact fun _ hmembers => h.sameChoice_blanks hmembers
  case unchanged =>
    intro expression raw
    rw [Reader.accepts_union h, Reader.parse_union h]
    exact ⟨rfl, rfl⟩

theorem chooses_of_grounded_flags :
    let registry := withBuiltins ", "
    registry.Grounded ∧
      registry.unionValue ("flag| boolean" ++ "|" ++ "int") "1" = .bool true ∧
      registry.unionValue ("flag| boolean" ++ "|" ++ "int") "2" = .int 2 ∧
      registry.SameChoice "flag| boolean|int" "boolean|int" := by
  intro registry
  have h : registry.Grounded := grounded_withBuiltins ", "
  refine ⟨h, ?_, ?_, (chooses_of_grounded h).unreadable _ _ (by decide)⟩
  · rw [(chooses_of_grounded h).value_append]
    rfl
  · rw [(chooses_of_grounded h).value_append]
    rfl

end Registry

end TypedEnv
