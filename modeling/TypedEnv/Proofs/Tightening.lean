import TypedEnv.Proofs.Binary64
import TypedEnv.Proofs.Judgement

/-!
Constraints only filter.

A rule is tightened when a list of options is set or loses some, a minimum is set or raised, or a
maximum is set or lowered.  Under tightened rules a run either comes to what it came to before,
with the same registry, or a tightened rule turns away a value that was stored before.  What a rule
falls back to is stored under any constraints.
-/

namespace TypedEnv

namespace FieldRule

def least? (rule : FieldRule) : Option Int := rule.min.bind Binary64.rank

def greatest? (rule : FieldRule) : Option Int := rule.max.bind Binary64.rank

/-- The first rule is the second with constraints that ask for as much or for more. -/
structure Tightens (strict lax : FieldRule) : Prop where
  typeId_eq : strict.typeId = lax.typeId
  fallback_eq : strict.fallback = lax.fallback
  fewer : ∀ options, lax.oneOf = some options → ∃ left, strict.oneOf = some left ∧ left ⊆ options
  higher : ∀ least, lax.least? = some least → ∃ raised, strict.least? = some raised ∧ least ≤ raised
  lower : ∀ greatest, lax.greatest? = some greatest →
    ∃ lowered, strict.greatest? = some lowered ∧ lowered ≤ greatest

structure Permits (rule : FieldRule) (raw : String) (value : Document) : Prop where
  lists : rule.Lists raw value
  not_tooSmall : ∀ bound measure, ¬ rule.TooSmall raw bound measure
  not_tooLarge : ∀ bound measure, ¬ rule.TooLarge raw bound measure

inductive Refuses (rule : FieldRule) (key raw : String) (value : Document) : Error → Prop
  | unlisted {options : List Document} : rule.oneOf = some options → ¬ rule.Lists raw value →
      Refuses rule key raw value (.notAnOption key raw options)
  | tooSmall {bound : Binary64} {measure : Measure} : rule.TooSmall raw bound measure →
      Refuses rule key raw value (.outOfBounds key value.display bound .minimum measure)
  | tooLarge {bound : Binary64} {measure : Measure} : rule.TooLarge raw bound measure →
      Refuses rule key raw value (.outOfBounds key value.display bound .maximum measure)

end FieldRule

inductive FieldSpec.Tightens : FieldSpec → FieldSpec → Prop
  | type (typeId : String) : Tightens (.type typeId) (.type typeId)
  | rule {strict lax : FieldRule} : strict.Tightens lax → Tightens (.rule strict) (.rule lax)

namespace Schema

/-- The schemas have the same fields, with the rules of the first tightened. -/
def Tightens (tight loose : Schema) : Prop :=
  ∀ key, Option.Rel FieldSpec.Tightens (tight.get? key) (loose.get? key)

/-- The rule of a key is tighter than it was, and refuses the value that the looser schema
stores. -/
inductive TurnsAway (tight loose : Schema) (registry : Registry) (a : Assignment) (error : Error) :
    Prop
  | intro {strict lax : FieldRule} {value : Document} : tight.get? a.key = some (.rule strict) →
      loose.get? a.key = some (.rule lax) → ¬ lax.Tightens strict →
      (loose.judge a registry).1 = .store value → strict.Refuses a.key a.value value error →
      TurnsAway tight loose registry a error

/-- What the first schema gives the second gives as well, and where the first alone fails, a tighter
rule turns away the first value on which they differ.  Neither asks anything of what a rule falls
back to. -/
structure Filters (tight loose : Schema) : Prop where
  kept : ∀ assignments registry parsed after,
    tight.evaluate assignments registry = (.ok parsed, after) →
      loose.evaluate assignments registry = (.ok parsed, after)
  refused : ∀ assignments registry parsed error,
    (loose.evaluate assignments registry).1 = .ok parsed →
      (tight.evaluate assignments registry).1 = .error error →
        ∃ before a later, assignments = before ++ a :: later ∧
          tight.evaluate before registry = loose.evaluate before registry ∧
          tight.TurnsAway loose (loose.evaluate before registry).2 a error
  replaced : ∀ key raw rule registry entry asked answered,
    tight.get? key = some (.rule rule) → registry.resolve rule.typeId = (some entry, asked) →
      entry.reader.accepts raw asked = (false, answered) → ∀ parsed later,
        tight.evaluateFrom parsed (⟨key, raw⟩ :: later) registry =
          tight.evaluateFrom (parsed.insert key (rule.fallback.getD .null)) later answered ∧
        loose.evaluateFrom parsed (⟨key, raw⟩ :: later) registry =
          loose.evaluateFrom (parsed.insert key (rule.fallback.getD .null)) later answered

end Schema

namespace FieldRule

variable {rule strict lax : FieldRule} {key raw : String} {value : Document}

theorem broken?_of_permits (h : rule.Permits raw value) : rule.broken? key raw value = none := by
  rw [broken?, checkOptions_of_lists h.lists, Option.none_or,
    checkBounds_of_within h.not_tooSmall h.not_tooLarge]

theorem exists_refuses_of_not_permits (h : ¬ rule.Permits raw value) :
    ∃ error, rule.broken? key raw value = some error ∧ rule.Refuses key raw value error := by
  unfold broken?
  rcases rule.cases_of_constraints raw value with
    ⟨options, ho, hl⟩ | ⟨hl, ⟨bound, measure, hs⟩ | ⟨hns, ⟨bound, measure, hg⟩ | hng⟩⟩
  · rw [checkOptions_of_not_lists ho hl]
    exact ⟨_, rfl, .unlisted ho hl⟩
  · rw [checkOptions_of_lists hl, checkBounds_of_tooSmall hs]
    exact ⟨_, rfl, .tooSmall hs⟩
  · rw [checkOptions_of_lists hl, checkBounds_of_tooLarge hns hg]
    exact ⟨_, rfl, .tooLarge hg⟩
  · exact absurd ⟨hl, hns, hng⟩ h

namespace Tightens

theorem lists (h : strict.Tightens lax) (hl : strict.Lists raw value) : lax.Lists raw value := by
  intro options hoptions
  obtain ⟨left, hleft, hsub⟩ := h.fewer options hoptions
  rcases hl left hleft with hmem | ⟨option, hmem, hstring, hsame⟩
  · exact Or.inl (hsub hmem)
  · exact Or.inr ⟨option, hsub hmem, hstring, hsame⟩

theorem measures {measure : Measure} {amount : Binary64} (h : strict.Tightens lax)
    (hm : lax.Measures raw measure amount) : strict.Measures raw measure amount := by
  cases hm with
  | value hid hx => exact .value (h.typeId_eq.trans hid) hx
  | length hid => exact .length (h.typeId_eq.trans hid)

theorem exists_tooSmall {bound : Binary64} {measure : Measure} (h : strict.Tightens lax)
    (hs : lax.TooSmall raw bound measure) : ∃ raised, strict.TooSmall raw raised measure := by
  obtain ⟨hmin, amount, hm, hbelow⟩ := hs
  obtain ⟨place, least, hplace, hleast, hlt⟩ := Binary64.below_iff.1 hbelow
  obtain ⟨raised, hraised, hle⟩ := h.higher least (by rw [least?, hmin, Option.bind_some, hleast])
  obtain ⟨own, hown, hrank⟩ := Option.bind_eq_some_iff.1 hraised
  exact ⟨own, hown, amount, h.measures hm,
    Binary64.below_iff.2 ⟨place, raised, hplace, hrank, Int.lt_of_lt_of_le hlt hle⟩⟩

theorem exists_tooLarge {bound : Binary64} {measure : Measure} (h : strict.Tightens lax)
    (hg : lax.TooLarge raw bound measure) : ∃ lowered, strict.TooLarge raw lowered measure := by
  obtain ⟨hmax, amount, hm, hbelow⟩ := hg
  obtain ⟨greatest, place, hgreatest, hplace, hlt⟩ := Binary64.below_iff.1 hbelow
  obtain ⟨lowered, hlowered, hle⟩ :=
    h.lower greatest (by rw [greatest?, hmax, Option.bind_some, hgreatest])
  obtain ⟨own, hown, hrank⟩ := Option.bind_eq_some_iff.1 hlowered
  exact ⟨own, hown, amount, h.measures hm,
    Binary64.below_iff.2 ⟨lowered, place, hrank, hplace, Int.lt_of_le_of_lt hle hlt⟩⟩

theorem permits (h : strict.Tightens lax) (hp : strict.Permits raw value) :
    lax.Permits raw value := by
  refine ⟨h.lists hp.lists, fun bound measure hs => ?_, fun bound measure hg => ?_⟩
  · obtain ⟨raised, hraised⟩ := h.exists_tooSmall hs
    exact hp.not_tooSmall raised measure hraised
  · obtain ⟨lowered, hlowered⟩ := h.exists_tooLarge hg
    exact hp.not_tooLarge lowered measure hlowered

end Tightens

end FieldRule

namespace FieldSpec

variable {key raw : String} {value : Document} {registry : Registry}

theorem accepted_of_permits {rule : FieldRule} (h : rule.Permits raw value) :
    accepted (.rule rule) key raw value = .store value := by
  rw [accepted, FieldRule.broken?_of_permits h]

theorem accepted_of_not_permits {rule : FieldRule} (h : ¬ rule.Permits raw value) :
    ∃ error, accepted (.rule rule) key raw value = .fatal error ∧
      rule.Refuses key raw value error := by
  obtain ⟨error, hbroken, hrefuses⟩ := FieldRule.exists_refuses_of_not_permits h
  exact ⟨error, by rw [accepted, hbroken], hrefuses⟩

theorem accepted_eq_or_fatal {strict lax : FieldRule} (h : strict.Tightens lax) (key raw : String)
    (value : Document) :
    accepted (.rule strict) key raw value = accepted (.rule lax) key raw value ∨
      ∃ error, accepted (.rule strict) key raw value = .fatal error ∧
        ((∃ other, accepted (.rule lax) key raw value = .fatal other) ∨
          accepted (.rule lax) key raw value = .store value ∧ ¬ lax.Tightens strict ∧
            strict.Refuses key raw value error) := by
  by_cases hp : strict.Permits raw value
  · rw [accepted_of_permits hp, accepted_of_permits (h.permits hp)]
    exact Or.inl rfl
  · obtain ⟨error, hfatal, hrefuses⟩ := accepted_of_not_permits hp
    refine Or.inr ⟨error, hfatal, ?_⟩
    by_cases hlax : lax.Permits raw value
    · exact Or.inr ⟨accepted_of_permits hlax, fun hback => hp (hback.permits hlax), hrefuses⟩
    · obtain ⟨other, hother, _⟩ := accepted_of_not_permits hlax
      exact Or.inl ⟨other, hother⟩

theorem judge_eq_or_accepted {spec other : FieldSpec} (hid : spec.typeId = other.typeId)
    (hrejected : spec.rejected = other.rejected) (key raw : String) (registry : Registry) :
    spec.judge key raw registry = other.judge key raw registry ∨
      ∃ value after, spec.judge key raw registry = (spec.accepted key raw value, after) ∧
        other.judge key raw registry = (other.accepted key raw value, after) := by
  unfold judge
  rw [hid]
  cases registry.resolve other.typeId with
  | mk found asked =>
    cases found with
    | none => exact Or.inl rfl
    | some entry =>
      dsimp only
      cases entry.reader.accepts raw asked with
      | mk verdict answered =>
        cases verdict with
        | false => exact Or.inl (by rw [hrejected])
        | true => exact Or.inr ⟨_, _, rfl, rfl⟩

end FieldSpec

namespace Schema

variable {tight loose : Schema}

theorem Tightens.isEmpty_eq (h : tight.Tightens loose) : tight.isEmpty = loose.isEmpty := by
  rw [Bool.eq_iff_iff, isEmpty, isEmpty, Dict.isEmpty_iff, Dict.isEmpty_iff]
  apply forall_congr'
  intro key
  rcases cases_of_rel (h key) with ⟨ht, hl⟩ | ⟨spec, other, ht, hl, _⟩
  · exact iff_of_true ht hl
  · exact iff_of_false (Option.ne_none_iff_exists'.2 ⟨spec, ht⟩)
      (Option.ne_none_iff_exists'.2 ⟨other, hl⟩)

/-- An assignment comes to the same with the same registry, unless it is fatal under the tightened
rules; then it is fatal under the looser ones too, or it is turned away. -/
theorem Tightens.judge_eq_or_fatal (h : tight.Tightens loose) (a : Assignment)
    (registry : Registry) :
    tight.judge a registry = loose.judge a registry ∨
      ∃ error, (tight.judge a registry).1 = .fatal error ∧
        ((∃ other, (loose.judge a registry).1 = .fatal other) ∨
          tight.TurnsAway loose registry a error) := by
  rcases cases_of_rel (h a.key) with ⟨ht, hl⟩ | ⟨spec, other, ht, hl, hspec⟩
  · exact Or.inl (by rw [judge, judge, h.isEmpty_eq, ht, hl])
  · rw [judge_listed ht, judge_listed hl]
    cases hspec with
    | type typeId => exact Or.inl rfl
    | @rule strict lax hrule =>
      have hrejected : (FieldSpec.rule strict).rejected = (FieldSpec.rule lax).rejected := by
        rw [FieldSpec.rejected, FieldSpec.rejected, hrule.fallback_eq]
      have hid : (FieldSpec.rule strict).typeId = (FieldSpec.rule lax).typeId := hrule.typeId_eq
      rcases FieldSpec.judge_eq_or_accepted hid hrejected a.key a.value registry with
        heq | ⟨value, after, hs, hx⟩
      · exact Or.inl heq
      · rw [hs, hx]
        rcases FieldSpec.accepted_eq_or_fatal hrule a.key a.value value with
          heq | ⟨error, hfatal, hother | ⟨hstored, hnot, hrefuses⟩⟩
        · exact Or.inl (congrArg (·, after) heq)
        · exact Or.inr ⟨error, hfatal, Or.inl hother⟩
        · have hjudge : (loose.judge a registry).1 = .store value := by
            rw [judge_listed hl, hx, hstored]
          exact Or.inr ⟨error, hfatal, Or.inr (.intro ht hl hnot hjudge hrefuses)⟩

variable {schema : Schema} {registry after : Registry} {a : Assignment}

theorem evaluateFrom_of_judge_eq (heq : tight.judge a registry = loose.judge a registry)
    (parsed : Parsed) :
    (∃ parsed' after, ∀ later,
      tight.evaluateFrom parsed (a :: later) registry = tight.evaluateFrom parsed' later after ∧
      loose.evaluateFrom parsed (a :: later) registry = loose.evaluateFrom parsed' later after) ∨
    ∀ later, tight.evaluateFrom parsed (a :: later) registry =
      loose.evaluateFrom parsed (a :: later) registry := by
  simp only [evaluateFrom, heq]
  cases loose.judge a registry with
  | mk outcome after =>
    cases outcome with
    | store value => exact Or.inl ⟨_, _, fun later => ⟨rfl, rfl⟩⟩
    | skip => exact Or.inl ⟨_, _, fun later => ⟨rfl, rfl⟩⟩
    | fatal error => exact Or.inr fun later => rfl

theorem evaluateFrom_of_fatal {error : Error} (h : (schema.judge a registry).1 = .fatal error)
    (parsed : Parsed) (later : List Assignment) :
    (schema.evaluateFrom parsed (a :: later) registry).1 = .error error := by
  rw [evaluateFrom]
  cases hj : schema.judge a registry with
  | mk outcome after =>
    rw [hj] at h
    subst h
    rfl

theorem Tightens.evaluateFrom_eq_or_error (h : tight.Tightens loose)
    (assignments : List Assignment) (parsed : Parsed) (registry : Registry) :
    tight.evaluateFrom parsed assignments registry =
        loose.evaluateFrom parsed assignments registry ∨
      ∃ error, (tight.evaluateFrom parsed assignments registry).1 = .error error ∧
        ((∃ other, (loose.evaluateFrom parsed assignments registry).1 = .error other) ∨
          ∃ before a later, assignments = before ++ a :: later ∧
            tight.evaluateFrom parsed before registry = loose.evaluateFrom parsed before registry ∧
            tight.TurnsAway loose (loose.evaluateFrom parsed before registry).2 a error) := by
  -- Up to the first difference both runs hold the same values and the same registry.
  induction assignments generalizing parsed registry with
  | nil => exact Or.inl rfl
  | cons a rest ih =>
    rcases h.judge_eq_or_fatal a registry with heq | ⟨error, hfatal, hloose⟩
    · rcases evaluateFrom_of_judge_eq heq parsed with ⟨parsed', after, hnext⟩ | hend
      · rw [(hnext rest).1, (hnext rest).2]
        rcases ih parsed' after with hsame | ⟨error, herror, hrest⟩
        · exact Or.inl hsame
        · refine Or.inr ⟨error, herror, hrest.imp_right ?_⟩
          rintro ⟨before, own, later, rfl, hbefore, haway⟩
          refine ⟨a :: before, own, later, rfl, ?_⟩
          rw [(hnext before).1, (hnext before).2]
          exact ⟨hbefore, haway⟩
      · exact Or.inl (hend rest)
    · refine Or.inr ⟨error, evaluateFrom_of_fatal hfatal parsed rest, ?_⟩
      rcases hloose with ⟨other, hother⟩ | haway
      · exact Or.inl ⟨other, evaluateFrom_of_fatal hother parsed rest⟩
      · exact Or.inr ⟨[], a, rest, rfl, rfl, haway⟩

theorem evaluateFrom_of_rejected {key raw : String} {rule : FieldRule} {entry : Entry}
    {asked answered : Registry} (hget : schema.get? key = some (.rule rule))
    (hfound : registry.resolve rule.typeId = (some entry, asked))
    (hrejects : entry.reader.accepts raw asked = (false, answered)) (parsed : Parsed)
    (later : List Assignment) :
    schema.evaluateFrom parsed (⟨key, raw⟩ :: later) registry =
      schema.evaluateFrom (parsed.insert key (rule.fallback.getD .null)) later answered := by
  have hjudge : schema.judge ⟨key, raw⟩ registry =
      (.store (rule.fallback.getD .null), answered) := by
    rw [judge_listed hget, FieldSpec.judge, FieldSpec.typeId, hfound]
    dsimp only
    rw [hrejects]
    rfl
  rw [evaluateFrom, hjudge]

/-- Constraints only filter: with rules tightened a run comes to the same, or a tightened rule turns
a value away. -/
theorem filters_of_tightens {tight loose : Schema} (h : tight.Tightens loose) :
    tight.Filters loose := by
  constructor
  · intro assignments registry parsed after hok
    rcases h.evaluateFrom_eq_or_error assignments .empty registry with hsame | ⟨error, herror, _⟩
    · rw [evaluate, ← hsame]
      exact hok
    · rw [evaluate] at hok
      rw [hok] at herror
      cases herror
  · intro assignments registry parsed error hok hfail
    rcases h.evaluateFrom_eq_or_error assignments .empty registry with
      hsame | ⟨own, hown, ⟨other, hother⟩ | hrest⟩
    · rw [evaluate] at hok hfail
      rw [hsame, hok] at hfail
      cases hfail
    · rw [evaluate, hother] at hok
      cases hok
    · rw [evaluate, hown] at hfail
      cases hfail
      exact hrest
  · intro key raw rule registry entry asked answered hget hfound hrejects parsed later
    refine ⟨evaluateFrom_of_rejected hget hfound hrejects parsed later, ?_⟩
    rcases cases_of_rel (h key) with ⟨ht, _⟩ | ⟨spec, other, ht, hl, hspec⟩
    · rw [hget] at ht
      cases ht
    · rw [hget] at ht
      cases ht
      cases hspec with
      | rule hrule =>
        rw [hrule.typeId_eq] at hfound
        rw [hrule.fallback_eq]
        exact evaluateFrom_of_rejected hl hfound hrejects parsed later

theorem filters_of_tightens_consent :
    let lax : FieldRule := { FieldRule.ofType "boolean" with fallback := some (.bool false) }
    let strict : FieldRule := { lax with oneOf := some [.bool true] }
    let tight := Schema.empty.field "CONSENT" (.rule strict)
    let loose := Schema.empty.field "CONSENT" (.rule lax)
    let registry := Registry.withBuiltins ", "
    tight.Tightens loose ∧
      (tight.evaluate [⟨"CONSENT", "?"⟩] registry).1 = .ok ⟨.ofList [("CONSENT", .bool false)]⟩ ∧
      (loose.evaluate [⟨"CONSENT", "?"⟩] registry).1 = .ok ⟨.ofList [("CONSENT", .bool false)]⟩ ∧
      ∃ before a later, [⟨"CONSENT", "?"⟩, ⟨"CONSENT", "no"⟩] = before ++ a :: later ∧
        tight.TurnsAway loose (loose.evaluate before registry).2 a
          (.notAnOption "CONSENT" "no" [.bool true]) := by
  intro lax strict tight loose registry
  have hrule : strict.Tightens lax := by
    refine ⟨rfl, rfl, ?_, ?_, ?_⟩
    · intro options h
      cases h
    · intro least h
      cases h
    · intro greatest h
      cases h
  have htight : tight.Tightens loose := by
    intro key
    rw [get?_field, get?_field]
    split
    · exact .some (.rule hrule)
    · exact .none
  obtain ⟨_, hrefused, hreplaced⟩ := filters_of_tightens htight
  obtain ⟨ht, hl⟩ := hreplaced "CONSENT" "?" strict registry _ _ _ rfl rfl rfl .empty []
  obtain ⟨before, a, later, hsplit, _, haway⟩ :=
    hrefused [⟨"CONSENT", "?"⟩, ⟨"CONSENT", "no"⟩] registry _ _ rfl rfl
  exact ⟨htight, congrArg Prod.fst ht, congrArg Prod.fst hl, before, a, later, hsplit, haway⟩

end Schema

end TypedEnv
