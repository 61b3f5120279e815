import Mathlib.Logic.ExistsUnique
import TypedEnv.Evaluation
import TypedEnv.Proofs.Document
import TypedEnv.Proofs.Meaning

/-!
The outcomes of assignments as rules, and what they come to.

`Schema.Judged` says what an assignment comes to, with all conditions of each outcome and with the
meanings of ids in one registry.  Evaluation gives the first fatal outcome, or the last stored value
of every key, with all outcomes judged by the registry as it was before: the unions that it stores
on the way change no outcome.
-/

namespace TypedEnv

namespace FieldRule

/-- Without a list of options all is listed; else a string option has to be the raw text, or
another option the value. -/
def Lists (rule : FieldRule) (raw : String) (value : Document) : Prop :=
  ∀ options, rule.oneOf = some options →
    .string raw ∈ options ∨ ∃ option ∈ options, option.string? = none ∧ option.same value = true

/-- The amount of a raw text that bounds apply to; a text that is no number has none. -/
inductive Measures (rule : FieldRule) (raw : String) : Measure → Binary64 → Prop
  | value {x : Binary64} : rule.typeId = "int" → rawFinite? raw = some x →
      Measures rule raw .value x
  | length : rule.typeId = "string" → Measures rule raw .length (.ofInt raw.length)

def TooSmall (rule : FieldRule) (raw : String) (bound : Binary64) (measure : Measure) : Prop :=
  rule.min = some bound ∧ ∃ amount, rule.Measures raw measure amount ∧ amount.below bound = true

def TooLarge (rule : FieldRule) (raw : String) (bound : Binary64) (measure : Measure) : Prop :=
  rule.max = some bound ∧ ∃ amount, rule.Measures raw measure amount ∧ bound.below amount = true

end FieldRule

def Registry.leafOf? (registry : Registry) (id : String) : Option Leaf :=
  (registry.meaning? id).map registry.asLeaf

/-- What an assignment comes to while ids mean what they mean in one registry. -/
inductive Schema.Judged (schema : Schema) (registry : Registry) : Assignment → Outcome → Prop
  | unchecked {a : Assignment} : schema.isEmpty = true →
      Judged schema registry a (.store (.string a.value))
  | unlisted {a : Assignment} : schema.isEmpty = false → schema.get? a.key = none →
      Judged schema registry a .skip
  | unreadable {a : Assignment} {spec : FieldSpec} : schema.get? a.key = some spec →
      registry.leafOf? spec.typeId = none →
      Judged schema registry a (.fatal (.unknownReader a.key spec.typeId))
  | dropped {a : Assignment} {typeId : String} {leaf : Leaf} :
      schema.get? a.key = some (.type typeId) → registry.leafOf? typeId = some leaf →
      leaf.accepts a.value = false → Judged schema registry a .skip
  | replaced {a : Assignment} {rule : FieldRule} {leaf : Leaf} :
      schema.get? a.key = some (.rule rule) → registry.leafOf? rule.typeId = some leaf →
      leaf.accepts a.value = false →
      Judged schema registry a (.store (rule.fallback.getD .null))
  | typed {a : Assignment} {typeId : String} {leaf : Leaf} :
      schema.get? a.key = some (.type typeId) → registry.leafOf? typeId = some leaf →
      leaf.accepts a.value = true → Judged schema registry a (.store (leaf.parse a.value))
  | unlistedValue {a : Assignment} {rule : FieldRule} {leaf : Leaf} {options : List Document} :
      schema.get? a.key = some (.rule rule) → registry.leafOf? rule.typeId = some leaf →
      leaf.accepts a.value = true → rule.oneOf = some options →
      ¬ rule.Lists a.value (leaf.parse a.value) →
      Judged schema registry a (.fatal (.notAnOption a.key a.value options))
  | tooSmall {a : Assignment} {rule : FieldRule} {leaf : Leaf} {bound : Binary64}
      {measure : Measure} :
      schema.get? a.key = some (.rule rule) → registry.leafOf? rule.typeId = some leaf →
      leaf.accepts a.value = true → rule.Lists a.value (leaf.parse a.value) →
      rule.TooSmall a.value bound measure →
      Judged schema registry a
        (.fatal (.outOfBounds a.key (leaf.parse a.value).display bound .minimum measure))
  | tooLarge {a : Assignment} {rule : FieldRule} {leaf : Leaf} {bound : Binary64}
      {measure : Measure} :
      schema.get? a.key = some (.rule rule) → registry.leafOf? rule.typeId = some leaf →
      leaf.accepts a.value = true → rule.Lists a.value (leaf.parse a.value) →
      (∀ bound measure, ¬ rule.TooSmall a.value bound measure) →
      rule.TooLarge a.value bound measure →
      Judged schema registry a
        (.fatal (.outOfBounds a.key (leaf.parse a.value).display bound .maximum measure))
  | kept {a : Assignment} {rule : FieldRule} {leaf : Leaf} :
      schema.get? a.key = some (.rule rule) → registry.leafOf? rule.typeId = some leaf →
      leaf.accepts a.value = true → rule.Lists a.value (leaf.parse a.value) →
      (∀ bound measure, ¬ rule.TooSmall a.value bound measure) →
      (∀ bound measure, ¬ rule.TooLarge a.value bound measure) →
      Judged schema registry a (.store (leaf.parse a.value))

namespace FieldRule

variable {rule : FieldRule} {key raw : String} {value : Document} {measure : Measure}
  {amount bound : Binary64}

theorem any_allows_iff {options : List Document} :
    options.any (allows raw value) = true ↔
      .string raw ∈ options ∨
        ∃ option ∈ options, option.string? = none ∧ option.same value = true := by
  rw [List.any_eq_true]
  constructor
  · rintro ⟨option, hmem, hallows⟩
    cases option with
    | string s =>
      rw [allows, beq_iff_eq] at hallows
      exact Or.inl (hallows ▸ hmem)
    | _ => exact Or.inr ⟨_, hmem, rfl, hallows⟩
  · rintro (hmem | ⟨option, hmem, hstring, hsame⟩)
    · exact ⟨.string raw, hmem, beq_self_eq_true raw⟩
    · refine ⟨option, hmem, ?_⟩
      cases option with
      | string s => cases hstring
      | _ => exact hsame

theorem checkOptions_of_lists (h : rule.Lists raw value) :
    rule.checkOptions key raw value = none := by
  unfold checkOptions
  cases ho : rule.oneOf with
  | none => rfl
  | some options => exact if_pos (any_allows_iff.2 (h options ho))

theorem checkOptions_of_not_lists {options : List Document} (ho : rule.oneOf = some options)
    (h : ¬ rule.Lists raw value) :
    rule.checkOptions key raw value = some (.notAnOption key raw options) := by
  unfold checkOptions
  rw [ho]
  apply if_neg
  intro hany
  apply h
  intro other hother
  rw [ho] at hother
  cases hother
  exact any_allows_iff.1 hany

theorem cases_of_constraints (rule : FieldRule) (raw : String) (value : Document) :
    (∃ options, rule.oneOf = some options ∧ ¬ rule.Lists raw value) ∨
      rule.Lists raw value ∧ ((∃ bound measure, rule.TooSmall raw bound measure) ∨
        (∀ bound measure, ¬ rule.TooSmall raw bound measure) ∧
          ((∃ bound measure, rule.TooLarge raw bound measure) ∨
            ∀ bound measure, ¬ rule.TooLarge raw bound measure)) := by
  by_cases hl : rule.Lists raw value
  · refine Or.inr ⟨hl, ?_⟩
    by_cases hs : ∃ bound measure, rule.TooSmall raw bound measure
    · exact Or.inl hs
    · refine Or.inr ⟨fun bound measure h => hs ⟨bound, measure, h⟩, ?_⟩
      by_cases hg : ∃ bound measure, rule.TooLarge raw bound measure
      · exact Or.inl hg
      · exact Or.inr fun bound measure h => hg ⟨bound, measure, h⟩
  · cases ho : rule.oneOf with
    | none =>
      apply absurd _ hl
      intro options hoptions
      rw [ho] at hoptions
      cases hoptions
    | some options => exact Or.inl ⟨options, rfl, hl⟩

theorem measures_iff {x : Binary64} (hid : rule.typeId = "int") (hx : rawFinite? raw = some x) :
    rule.Measures raw measure amount ↔ measure = .value ∧ amount = x := by
  constructor
  · intro h
    cases h with
    | value _ hamount => exact ⟨rfl, Option.some.inj (hamount.symm.trans hx)⟩
    | length hstring =>
      rw [hid] at hstring
      exact absurd hstring (by decide)
  · rintro ⟨rfl, rfl⟩
    exact .value hid hx

theorem measured?_of_measures (h : rule.Measures raw measure amount) :
    rule.measured? raw = some (measure, amount) := by
  unfold measured?
  cases h with
  | value hid hx => rw [if_pos hid, hx, Option.getD_some]
  | length hid => rw [if_neg (by rw [hid]; decide), if_pos hid]

/-- A text that is no number is measured by NaN, which violates nothing. -/
theorem measures_or_nan (h : rule.measured? raw = some (measure, amount)) :
    rule.Measures raw measure amount ∨ amount = .nan := by
  unfold measured? at h
  split at h
  · next hid =>
    cases h
    cases hx : rawFinite? raw with
    | some x => exact Or.inl (.value hid hx)
    | none => exact Or.inr rfl
  · split at h
    · next hid =>
      cases h
      exact Or.inl (.length hid)
    · cases h

theorem checkBounds_of_measured (hm : rule.measured? raw = some (measure, amount)) :
    rule.checkBounds key raw value = (rule.violated? amount).map fun violated =>
      .outOfBounds key value.display violated.2 violated.1 measure := by
  simp only [checkBounds, hm, Option.bind_eq_bind, Option.bind_some]
  cases rule.violated? amount <;> rfl

theorem checkBounds_of_tooSmall (h : rule.TooSmall raw bound measure) :
    rule.checkBounds key raw value =
      some (.outOfBounds key value.display bound .minimum measure) := by
  obtain ⟨hmin, amount, hm, hbelow⟩ := h
  rw [checkBounds_of_measured (measured?_of_measures hm), violated?, hmin,
    Option.filter_some_pos hbelow]
  rfl

theorem min_filter_eq_none (h : ∀ bound measure, ¬ rule.TooSmall raw bound measure)
    (hm : rule.measured? raw = some (measure, amount)) : rule.min.filter amount.below = none := by
  rw [Option.filter_eq_none_iff]
  intro least hl hb
  rcases measures_or_nan hm with hmeasures | rfl
  · exact h least measure ⟨hl, amount, hmeasures, hb⟩
  · cases hb

theorem max_filter_eq_none (h : ∀ bound measure, ¬ rule.TooLarge raw bound measure)
    (hm : rule.measured? raw = some (measure, amount)) :
    rule.max.filter (·.below amount) = none := by
  rw [Option.filter_eq_none_iff]
  intro greatest hg hb
  rcases measures_or_nan hm with hmeasures | rfl
  · exact h greatest measure ⟨hg, amount, hmeasures, hb⟩
  · rw [Binary64.not_below_nan] at hb
    cases hb

theorem checkBounds_of_tooLarge (hsmall : ∀ bound measure, ¬ rule.TooSmall raw bound measure)
    (h : rule.TooLarge raw bound measure) :
    rule.checkBounds key raw value =
      some (.outOfBounds key value.display bound .maximum measure) := by
  obtain ⟨hmax, amount, hm, hbelow⟩ := h
  have hmeasured := measured?_of_measures hm
  have hfilter : (some bound).filter (·.below amount) = some bound := Option.filter_some_pos hbelow
  rw [checkBounds_of_measured hmeasured, violated?, min_filter_eq_none hsmall hmeasured, hmax,
    hfilter]
  rfl

theorem checkBounds_of_within (hsmall : ∀ bound measure, ¬ rule.TooSmall raw bound measure)
    (hlarge : ∀ bound measure, ¬ rule.TooLarge raw bound measure) :
    rule.checkBounds key raw value = none := by
  cases hm : rule.measured? raw with
  | none =>
    rw [checkBounds, hm]
    rfl
  | some pair =>
    rw [checkBounds_of_measured hm, violated?, min_filter_eq_none hsmall hm,
      max_filter_eq_none hlarge hm]
    rfl

end FieldRule

namespace Schema

variable {schema : Schema} {registry other : Registry} {a : Assignment} {outcome : Outcome}

theorem get?_of_isEmpty (h : schema.isEmpty = true) (key : String) : schema.get? key = none :=
  Dict.get?_of_isEmpty h key

theorem isEmpty_eq_false {key : String} {spec : FieldSpec} (h : schema.get? key = some spec) :
    schema.isEmpty = false := by
  rw [← Bool.not_eq_true]
  intro hempty
  rw [get?_of_isEmpty hempty] at h
  cases h

theorem judge_listed {spec : FieldSpec} (h : schema.get? a.key = some spec)
    (registry : Registry) : schema.judge a registry = spec.judge a.key a.value registry := by
  rw [judge, isEmpty_eq_false h, if_neg Bool.false_ne_true, h]

theorem judge_field (h : registry.Grounded) (spec : FieldSpec) (key raw : String) :
    spec.judge key raw registry =
      (match registry.leafOf? spec.typeId with
        | none => .fatal (.unknownReader key spec.typeId)
        | some leaf =>
          if leaf.accepts raw then spec.accepted key raw (leaf.parse raw) else spec.rejected,
        (registry.resolve spec.typeId).2) := by
  have hm := registry.map_reader_resolve spec.typeId
  unfold FieldSpec.judge
  cases hr : registry.resolve spec.typeId with
  | mk found after =>
    rw [hr] at hm
    cases found with
    | none =>
      rw [Registry.leafOf?, ← hm]
      rfl
    | some entry =>
      dsimp only
      rw [Registry.leafOf?, (h.found hr).1, h.accepts_found hr, Option.map_some]
      dsimp only
      cases (registry.asLeaf entry.reader).accepts raw with
      | true =>
        dsimp only
        rw [h.parse_found hr]
        rfl
      | false => rfl

theorem leafOf?_congr (hm : registry.meaning? = other.meaning?) :
    registry.leafOf? = other.leafOf? := by
  funext id
  rw [Registry.leafOf?, Registry.leafOf?, hm, Registry.asLeaf_congr hm]

theorem judge_fst_congr (h : registry.Grounded) (hother : other.Grounded)
    (hm : registry.meaning? = other.meaning?) (a : Assignment) :
    (schema.judge a registry).1 = (schema.judge a other).1 := by
  unfold judge
  split
  · rfl
  · split
    · rfl
    · rw [judge_field h, judge_field hother, leafOf?_congr hm]

theorem judge_snd (h : registry.Grounded) (a : Assignment) :
    (schema.judge a registry).2.Grounded ∧
      (schema.judge a registry).2.meaning? = registry.meaning? := by
  unfold judge
  split
  · exact ⟨h, rfl⟩
  · split
    · exact ⟨h, rfl⟩
    · rw [judge_field h]
      exact ⟨h.resolve _, registry.meaning?_resolve _⟩

theorem judge_of_get? (h : registry.Grounded) {spec : FieldSpec} {leaf : Leaf}
    (hget : schema.get? a.key = some spec) (hleaf : registry.leafOf? spec.typeId = some leaf) :
    (schema.judge a registry).1 =
      if leaf.accepts a.value then spec.accepted a.key a.value (leaf.parse a.value)
      else spec.rejected := by
  rw [judge_listed hget, judge_field h, hleaf]

theorem exists_judged (schema : Schema) (registry : Registry) (a : Assignment) :
    ∃ outcome, schema.Judged registry a outcome := by
  by_cases he : schema.isEmpty = true
  · exact ⟨_, .unchecked he⟩
  · cases hget : schema.get? a.key with
    | none => exact ⟨_, .unlisted (Bool.eq_false_iff.2 he) hget⟩
    | some spec =>
      cases hleaf : registry.leafOf? spec.typeId with
      | none => exact ⟨_, .unreadable hget hleaf⟩
      | some leaf =>
        cases spec with
        | type typeId =>
          cases ha : leaf.accepts a.value with
          | false => exact ⟨_, .dropped hget hleaf ha⟩
          | true => exact ⟨_, .typed hget hleaf ha⟩
        | rule own =>
          cases ha : leaf.accepts a.value with
          | false => exact ⟨_, .replaced hget hleaf ha⟩
          | true =>
            rcases own.cases_of_constraints a.value (leaf.parse a.value) with
              ⟨options, ho, hl⟩ | ⟨hl, ⟨bound, measure, hs⟩ | ⟨hns, ⟨bound, measure, hg⟩ | hng⟩⟩
            · exact ⟨_, .unlistedValue hget hleaf ha ho hl⟩
            · exact ⟨_, .tooSmall hget hleaf ha hl hs⟩
            · exact ⟨_, .tooLarge hget hleaf ha hl hns hg⟩
            · exact ⟨_, .kept hget hleaf ha hl hns hng⟩

theorem judge_fst_of_judged (h : registry.Grounded) (hj : schema.Judged registry a outcome) :
    (schema.judge a registry).1 = outcome := by
  cases hj with
  | unchecked he => rw [judge, if_pos he]
  | unlisted he hget => rw [judge, he, if_neg Bool.false_ne_true, hget]
  | unreadable hget hleaf =>
    rw [judge_listed hget, judge_field h, hleaf]
  | dropped hget hleaf ha =>
    rw [judge_of_get? h hget hleaf, ha]
    rfl
  | replaced hget hleaf ha =>
    rw [judge_of_get? h hget hleaf, ha]
    rfl
  | typed hget hleaf ha =>
    rw [judge_of_get? h hget hleaf, ha]
    rfl
  | unlistedValue hget hleaf ha ho hl =>
    rw [judge_of_get? h hget hleaf, if_pos ha, FieldSpec.accepted, FieldRule.broken?,
      FieldRule.checkOptions_of_not_lists ho hl]
    rfl
  | tooSmall hget hleaf ha hl hs =>
    rw [judge_of_get? h hget hleaf, if_pos ha, FieldSpec.accepted, FieldRule.broken?,
      FieldRule.checkOptions_of_lists hl, FieldRule.checkBounds_of_tooSmall hs]
    rfl
  | tooLarge hget hleaf ha hl hns hg =>
    rw [judge_of_get? h hget hleaf, if_pos ha, FieldSpec.accepted, FieldRule.broken?,
      FieldRule.checkOptions_of_lists hl, FieldRule.checkBounds_of_tooLarge hns hg]
    rfl
  | kept hget hleaf ha hl hns hng =>
    rw [judge_of_get? h hget hleaf, if_pos ha, FieldSpec.accepted, FieldRule.broken?,
      FieldRule.checkOptions_of_lists hl, FieldRule.checkBounds_of_within hns hng]
    rfl

theorem judged_iff (h : registry.Grounded) :
    schema.Judged registry a outcome ↔ (schema.judge a registry).1 = outcome := by
  constructor
  · exact judge_fst_of_judged h
  · rintro rfl
    obtain ⟨outcome, hj⟩ := schema.exists_judged registry a
    rw [judge_fst_of_judged h hj]
    exact hj

end Schema

namespace Outcome

def fatal? : Outcome → Option Error
  | fatal error => some error
  | _ => none

def stored? : Outcome → Option Document
  | store value => some value
  | _ => none

theorem fatal?_eq_some_iff {outcome : Outcome} {error : Error} :
    outcome.fatal? = some error ↔ outcome = fatal error := by
  cases outcome <;> simp [fatal?]

theorem stored?_eq_some_iff {outcome : Outcome} {value : Document} :
    outcome.stored? = some value ↔ outcome = store value := by
  cases outcome <;> simp [stored?]

/-- What outcomes come to on top of the values so far. -/
def settle (parsed : Parsed) : List (String × Outcome) → Except Error Parsed
  | [] => .ok parsed
  | (key, store value) :: later => settle (parsed.insert key value) later
  | (_, skip) :: later => settle parsed later
  | (_, fatal error) :: _ => .error error

theorem settle_eq (parsed : Parsed) (outcomes : List (String × Outcome)) :
    settle parsed outcomes = match outcomes.findSome? fun entry => entry.2.fatal? with
      | some error => .error error
      | none => .ok ⟨(outcomes.filterMap fun entry => entry.2.stored?.map (entry.1, ·)).foldl
          (fun dict entry => dict.insert entry.1 entry.2) parsed.values⟩ := by
  induction outcomes generalizing parsed with
  | nil => rfl
  | cons entry later ih =>
    obtain ⟨key, outcome⟩ := entry
    cases outcome with
    | store value =>
      rw [settle, ih]
      rfl
    | skip =>
      rw [settle, ih]
      rfl
    | fatal error => rfl

end Outcome

namespace Schema

variable {schema : Schema} {registry : Registry} {assignments : List Assignment}

/-- Evaluation settles the outcomes against the registry as it was, whatever unions it has stored
by the time it comes to an assignment. -/
theorem evaluateFrom_fst (h : registry.Grounded) {after : Registry} (hafter : after.Grounded)
    (hm : after.meaning? = registry.meaning?) (parsed : Parsed) :
    (schema.evaluateFrom parsed assignments after).1 =
      Outcome.settle parsed (assignments.map fun a => (a.key, (schema.judge a registry).1)) := by
  -- What carries the induction is `hm`: after any assignment ids mean what they meant before all.
  induction assignments generalizing parsed after with
  | nil => rfl
  | cons a later ih =>
    have hcongr : (schema.judge a after).1 = (schema.judge a registry).1 :=
      judge_fst_congr hafter h hm a
    have hnext : (schema.judge a after).2.Grounded := (judge_snd hafter a).1
    have hnextm : (schema.judge a after).2.meaning? = after.meaning? := (judge_snd hafter a).2
    rw [List.map_cons, evaluateFrom]
    cases hj : schema.judge a after with
    | mk outcome next =>
      rw [hj] at hcongr hnext hnextm
      rw [← hcongr]
      cases outcome with
      | store value => exact ih hnext (hnextm.trans hm) _
      | skip => exact ih hnext (hnextm.trans hm) _
      | fatal error => rfl

theorem evaluate_fst (h : registry.Grounded) :
    (schema.evaluate assignments registry).1 =
      match assignments.findSome? fun a => (schema.judge a registry).1.fatal? with
        | some error => .error error
        | none => .ok ⟨.ofList (assignments.filterMap fun a =>
            (schema.judge a registry).1.stored?.map (a.key, ·))⟩ := by
  rw [evaluate, evaluateFrom_fst h h rfl, Outcome.settle_eq, List.findSome?_map, List.filterMap_map]
  rfl

theorem evaluate_eq_error_iff (h : registry.Grounded) {error : Error} :
    (schema.evaluate assignments registry).1 = .error error ↔
      ∃ before a after, assignments = before ++ a :: after ∧
        schema.Judged registry a (.fatal error) ∧
        ∀ earlier ∈ before, ∀ other, ¬ schema.Judged registry earlier (.fatal other) := by
  have hfirst : (schema.evaluate assignments registry).1 = .error error ↔
      (assignments.findSome? fun a => (schema.judge a registry).1.fatal?) = some error := by
    rw [evaluate_fst h]
    cases assignments.findSome? fun a => (schema.judge a registry).1.fatal? with
    | none => simp
    | some first => simp
  rw [hfirst, List.findSome?_eq_some_iff]
  simp only [judged_iff h, Outcome.fatal?_eq_some_iff, Option.eq_none_iff_forall_ne_some, ne_eq]

theorem map_find?_filterMap (stored : Assignment → Option Document) (key : String)
    (assignments : List Assignment) :
    ((assignments.filterMap fun a => (stored a).map (a.key, ·)).find? (·.1 == key)).map Prod.snd =
      assignments.findSome? fun a => if a.key = key then stored a else none := by
  induction assignments with
  | nil => rfl
  | cons a later ih =>
    rw [List.findSome?_cons]
    cases hs : stored a with
    | none =>
      rw [List.filterMap_cons_none (by rw [hs]; rfl), ih, ite_self]
    | some value =>
      rw [List.filterMap_cons_some (by rw [hs]; rfl), List.find?_cons]
      by_cases hkey : a.key = key
      · rw [if_pos hkey, hkey, beq_self_eq_true]
        rfl
      · rw [if_neg hkey, beq_eq_false_iff_ne.2 hkey]
        exact ih

theorem get?_ofList_filterMap {stored : Assignment → Option Document} {key : String}
    {value : Document} :
    (Dict.ofList (assignments.filterMap fun a => (stored a).map (a.key, ·))).get? key = some value ↔
      ∃ before raw after, assignments = before ++ ⟨key, raw⟩ :: after ∧
        stored ⟨key, raw⟩ = some value ∧
        ∀ later ∈ after, later.key = key → stored later = none := by
  rw [Dict.get?_ofList, ← List.filterMap_reverse, map_find?_filterMap, List.findSome?_eq_some_iff]
  constructor
  · rintro ⟨after, ⟨own, raw⟩, before, hsplit, hvalue, hafter⟩
    have hkey : own = key := by
      apply Decidable.byContradiction
      intro hne
      rw [if_neg hne] at hvalue
      cases hvalue
    rw [hkey, if_pos rfl] at hvalue
    refine ⟨before.reverse, raw, after.reverse, ?_, hvalue, ?_⟩
    · rw [List.reverse_eq_iff.1 hsplit, hkey]
      simp
    · intro later hl hlkey
      have hnone := hafter later (List.mem_reverse.1 hl)
      rwa [if_pos hlkey] at hnone
  · rintro ⟨before, raw, after, hsplit, hvalue, hafter⟩
    refine ⟨after.reverse, ⟨key, raw⟩, before.reverse, ?_, ?_, ?_⟩
    · rw [hsplit]
      simp
    · rw [if_pos rfl, hvalue]
    · intro later hl
      split
      · next hlkey => exact hafter later (List.mem_reverse.1 hl) hlkey
      · rfl

theorem get?_of_evaluate_eq_ok (h : registry.Grounded) {parsed : Parsed}
    (hok : (schema.evaluate assignments registry).1 = .ok parsed) (key : String)
    (value : Document) :
    parsed.get? key = some value ↔
      ∃ before raw after, assignments = before ++ ⟨key, raw⟩ :: after ∧
        schema.Judged registry ⟨key, raw⟩ (.store value) ∧
        ∀ later ∈ after, later.key = key →
          ∀ other, ¬ schema.Judged registry later (.store other) := by
  rw [evaluate_fst h] at hok
  split at hok
  · cases hok
  · cases hok
    simp only [judged_iff h, ← Outcome.stored?_eq_some_iff, ← ne_eq,
      ← Option.eq_none_iff_forall_ne_some]
    exact get?_ofList_filterMap

theorem exists_evaluate_eq_ok_iff (h : registry.Grounded) :
    (∃ parsed, (schema.evaluate assignments registry).1 = .ok parsed) ↔
      ∀ a ∈ assignments, ∀ error, ¬ schema.Judged registry a (.fatal error) := by
  simp only [judged_iff h, ← Outcome.fatal?_eq_some_iff, ← ne_eq,
    ← Option.eq_none_iff_forall_ne_some, ← List.findSome?_eq_none_iff, evaluate_fst h]
  cases assignments.findSome? fun a => (schema.judge a registry).1.fatal? with
  | none => simp
  | some first => simp

/-- Evaluation comes to what the rules say of each assignment against the registry as it was before:
every assignment has one outcome, evaluation succeeds exactly without a fatal one, fails with the
first one otherwise, and on success has for each key the last stored value. -/
theorem evaluate_judged (schema : Schema) (assignments : List Assignment) {registry : Registry}
    (h : registry.Grounded) :
    (∀ a, ∃! outcome, schema.Judged registry a outcome) ∧
    ((∃ parsed, (schema.evaluate assignments registry).1 = .ok parsed) ↔
      ∀ a ∈ assignments, ∀ error, ¬ schema.Judged registry a (.fatal error)) ∧
    (∀ error, (schema.evaluate assignments registry).1 = .error error ↔
      ∃ before a after, assignments = before ++ a :: after ∧
        schema.Judged registry a (.fatal error) ∧
        ∀ earlier ∈ before, ∀ other, ¬ schema.Judged registry earlier (.fatal other)) ∧
    ∀ parsed, (schema.evaluate assignments registry).1 = .ok parsed → ∀ key value,
      (parsed.get? key = some value ↔
        ∃ before raw after, assignments = before ++ ⟨key, raw⟩ :: after ∧
          schema.Judged registry ⟨key, raw⟩ (.store value) ∧
          ∀ later ∈ after, later.key = key →
            ∀ other, ¬ schema.Judged registry later (.store other)) := by
  refine ⟨fun a => ?_, exists_evaluate_eq_ok_iff h, fun error => evaluate_eq_error_iff h,
    fun parsed hok => get?_of_evaluate_eq_ok h hok⟩
  obtain ⟨outcome, hj⟩ := schema.exists_judged registry a
  refine ⟨outcome, hj, fun other hother => ?_⟩
  rw [← (judged_iff h).1 hj, ← (judged_iff h).1 hother]

/-- The memoized union reads the first value and drops the second, and the unlisted key is skipped;
an option allows a text that spells its value another way, and one zero the other.  An option that
is a text itself does not lift the bounds. -/
theorem evaluate_judged_union :
    let registry := Registry.withBuiltins ", "
    let bounded : FieldRule := { FieldRule.ofType "int" with
      oneOf := some [.int 7, .string "12"], min := some (.ofInt 5), max := some (.ofInt 10) }
    let zero : FieldRule := { FieldRule.ofType "number" with oneOf := some [.float (.zero true)] }
    let schema := ((Schema.empty.field "A" (.type "int|boolean")).field "N" (.rule bounded)).field
      "Z" (.rule zero)
    registry.Grounded ∧
      (∃ parsed, (schema.evaluate
          [⟨"A", "7"⟩, ⟨"A", "x"⟩, ⟨"B", "1"⟩, ⟨"N", "07"⟩, ⟨"Z", "0.0"⟩] registry).1 =
            .ok parsed ∧
        parsed.get? "A" = some (.int 7) ∧ parsed.get? "N" = some (.int 7) ∧
        parsed.get? "Z" = some (.float (.zero false))) ∧
      (schema.evaluate [⟨"A", "7"⟩, ⟨"N", "12"⟩, ⟨"Z", "x"⟩] registry).1 =
        .error (.outOfBounds "N" "12" (.ofInt 10) .maximum .value) := by
  intro registry bounded zero schema
  have h : registry.Grounded := Registry.grounded_withBuiltins ", "
  have hstored {a : Assignment} {value : Document}
      (hs : (schema.judge a registry).1.stored? = some value) :
      schema.Judged registry a (.store value) :=
    (judged_iff h).2 (Outcome.stored?_eq_some_iff.1 hs)
  have hunion : schema.Judged registry ⟨"A", "7"⟩ (.store (.int 7)) := (judged_iff h).2 rfl
  have hdropped : schema.Judged registry ⟨"A", "x"⟩ .skip := (judged_iff h).2 rfl
  have hraw : rawFinite? "12" = some (.ofInt 12) := by decide +kernel
  have hlarge : schema.Judged registry ⟨"N", "12"⟩ (.fatal (.outOfBounds "N"
      (Leaf.int.parse "12").display (.ofInt 10) .maximum .value)) := by
    have hget : schema.get? "N" = some (.rule bounded) := rfl
    refine .tooLarge hget rfl (by decide +kernel) ?_ ?_
      ⟨rfl, .ofInt 12, .value rfl hraw, by decide +kernel⟩
    · rintro _ ⟨⟩
      exact Or.inl (by simp)
    · rintro _ _ ⟨hmin, amount, hamount, hbelow⟩
      obtain rfl := Option.some.inj hmin
      rw [((FieldRule.measures_iff rfl hraw).1 hamount).2] at hbelow
      exact absurd hbelow (by decide +kernel)
  have hshown : (Leaf.int.parse "12").display = "12" := by decide +kernel
  rw [hshown] at hlarge
  refine ⟨h, ?_, ?_⟩
  · obtain ⟨_, hsuccess, _, hvalues⟩ := evaluate_judged schema
      [⟨"A", "7"⟩, ⟨"A", "x"⟩, ⟨"B", "1"⟩, ⟨"N", "07"⟩, ⟨"Z", "0.0"⟩] h
    obtain ⟨parsed, hok⟩ := hsuccess.2 (by
      simp only [judged_iff h, ← Outcome.fatal?_eq_some_iff, ← ne_eq,
        ← Option.eq_none_iff_forall_ne_some, ← Option.isNone_iff_eq_none]
      decide +kernel)
    refine ⟨parsed, hok, (hvalues parsed hok _ _).2 ?_, (hvalues parsed hok _ _).2 ?_,
      (hvalues parsed hok _ _).2 ?_⟩
    · refine ⟨[], "7", _, rfl, hunion, ?_⟩
      simp only [List.forall_mem_cons, judged_iff h]
      rw [(judged_iff h).1 hdropped]
      simp
    · exact ⟨[⟨"A", "7"⟩, ⟨"A", "x"⟩, ⟨"B", "1"⟩], "07", _, rfl, hstored (by decide +kernel),
        by simp⟩
    · exact ⟨[⟨"A", "7"⟩, ⟨"A", "x"⟩, ⟨"B", "1"⟩, ⟨"N", "07"⟩], "0.0", _, rfl,
        hstored (by decide +kernel), by simp⟩
  · obtain ⟨_, _, hfailure, _⟩ := evaluate_judged schema [⟨"A", "7"⟩, ⟨"N", "12"⟩, ⟨"Z", "x"⟩] h
    refine (hfailure _).2 ⟨[⟨"A", "7"⟩], ⟨"N", "12"⟩, _, rfl, hlarge, ?_⟩
    intro earlier hearlier other
    obtain rfl := List.mem_singleton.1 hearlier
    rw [judged_iff h, (judged_iff h).1 hunion]
    simp

end Schema

end TypedEnv
