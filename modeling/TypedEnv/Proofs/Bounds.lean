import TypedEnv.Proofs.Judgement
import TypedEnv.Proofs.Numeral
import TypedEnv.Proofs.Rounding

/-!
Bounds of integers.  A rule for integers compares its bounds with the number that the integer comes
to when it is rounded.  A bound that is reported is one that the integer itself breaks, and the
integer breaks a bound unnoticed only if it comes to that very bound, beyond 53 places.
-/

namespace TypedEnv

open TypedEnv.Binary64

inductive FieldRule.Breaks (rule : FieldRule) (place : Int) : Limit → Binary64 → Prop
  | minimum {bound : Binary64} {least : Int} : rule.min = some bound → bound.rank = some least →
      place < least → Breaks rule place .minimum bound
  | maximum {bound : Binary64} {greatest : Int} : rule.max = some bound →
      bound.rank = some greatest → greatest < place → Breaks rule place .maximum bound

/-- What a rule without options makes of a text for the integer `n`, if it compares its bounds with
a place: assignments go on with the integer stored, or end with the first bound broken. -/
structure Schema.Confines (schema : Schema) (registry : Registry) (rule : FieldRule)
    (key raw : String) (n place : Int) : Prop where
  stores : (∀ limit bound, ¬ rule.Breaks place limit bound) → ∀ parsed later,
    schema.evaluateFrom parsed (⟨key, raw⟩ :: later) registry =
      schema.evaluateFrom (parsed.insert key (.int n)) later registry
  tooSmall : ∀ bound, rule.Breaks place .minimum bound → ∀ parsed later,
    schema.evaluateFrom parsed (⟨key, raw⟩ :: later) registry =
      (.error (.outOfBounds key (Document.int n).display bound .minimum .value), registry)
  tooLarge : (∀ least, ¬ rule.Breaks place .minimum least) →
    ∀ bound, rule.Breaks place .maximum bound → ∀ parsed later,
      schema.evaluateFrom parsed (⟨key, raw⟩ :: later) registry =
        (.error (.outOfBounds key (Document.int n).display bound .maximum .value), registry)

/-- Comparing with a place instead of the integer itself reports no bound that holds, and overlooks
only a bound that is the place, for an integer of more than 53 places that lies elsewhere. -/
structure FieldRule.Approximates (rule : FieldRule) (n place : Int) : Prop where
  broken : ∀ limit bound, rule.Breaks place limit bound →
    rule.Breaks (n * unitsPerOne) limit bound
  overlooked : ∀ limit bound, rule.Breaks (n * unitsPerOne) limit bound →
    ¬ rule.Breaks place limit bound → bound.rank = some place
  exact : n.natAbs ≤ twoPow 53 → place = n * unitsPerOne

variable {rule : FieldRule} {key raw : String} {n place : Int} {x bound : Binary64}
  {measure : Measure}

namespace FieldRule

theorem tooSmall_iff (hid : rule.typeId = "int") (hx : rawFinite? raw = some x)
    (hplace : x.rank = some place) :
    rule.TooSmall raw bound measure ↔ measure = .value ∧ rule.Breaks place .minimum bound := by
  constructor
  · rintro ⟨hmin, amount, hmeasures, hbelow⟩
    obtain ⟨rfl, rfl⟩ := (measures_iff hid hx).1 hmeasures
    obtain ⟨m, least, hm, hleast, hlt⟩ := below_iff.1 hbelow
    cases hplace.symm.trans hm
    exact ⟨rfl, .minimum hmin hleast hlt⟩
  · rintro ⟨rfl, hbreaks⟩
    cases hbreaks with
    | minimum hmin hleast hlt =>
      exact ⟨hmin, x, .value hid hx, below_iff.2 ⟨_, _, hplace, hleast, hlt⟩⟩

theorem tooLarge_iff (hid : rule.typeId = "int") (hx : rawFinite? raw = some x)
    (hplace : x.rank = some place) :
    rule.TooLarge raw bound measure ↔ measure = .value ∧ rule.Breaks place .maximum bound := by
  constructor
  · rintro ⟨hmax, amount, hmeasures, hbelow⟩
    obtain ⟨rfl, rfl⟩ := (measures_iff hid hx).1 hmeasures
    obtain ⟨greatest, m, hgreatest, hm, hlt⟩ := below_iff.1 hbelow
    cases hplace.symm.trans hm
    exact ⟨rfl, .maximum hmax hgreatest hlt⟩
  · rintro ⟨rfl, hbreaks⟩
    cases hbreaks with
    | maximum hmax hgreatest hlt =>
      exact ⟨hmax, x, .value hid hx, below_iff.2 ⟨_, _, hgreatest, hplace, hlt⟩⟩

/-- The integer and what it comes to lie on the same side of every bound, or the bound is where the
integer comes to. -/
theorem approximates_of_rounds {negative : Bool} {size : Magnitude}
    (h : Rounds n negative size) (hn : n.natAbs < twoPow 64) :
    rule.Approximates n (signed negative size.units) := by
  constructor
  · intro limit bound hbreaks
    cases hbreaks with
    | minimum hmin hleast hlt => exact .minimum hmin hleast ((h.between hn hleast).1 hlt)
    | maximum hmax hgreatest hlt => exact .maximum hmax hgreatest ((h.between hn hgreatest).2 hlt)
  · intro limit bound hbreaks hnot
    cases hbreaks with
    | @minimum _ least hmin hleast hlt =>
      have hle : ¬ signed negative size.units < least := fun hlt => hnot (.minimum hmin hleast hlt)
      have hsides := h.between hn hleast
      have hplace : least = signed negative size.units := by omega
      rw [hleast, hplace]
    | @maximum _ greatest hmax hgreatest hlt =>
      have hge : ¬ greatest < signed negative size.units :=
        fun hlt => hnot (.maximum hmax hgreatest hlt)
      have hsides := h.between hn hgreatest
      have hplace : greatest = signed negative size.units := by omega
      rw [hgreatest, hplace]
  · exact h.units_eq

end FieldRule

namespace Schema

variable {schema : Schema} {registry : Registry} {serial : Nat}

theorem judge_int (hget : schema.get? key = some (.rule rule)) (hid : rule.typeId = "int")
    (hint : registry.shelf.get? "int" = some ⟨serial, .leaf .int⟩)
    (hraw : rawInt64? raw = some n) :
    schema.judge ⟨key, raw⟩ registry =
      (FieldSpec.accepted (.rule rule) key raw (.int n), registry) := by
  have hresolve : registry.resolve "int" = (some ⟨serial, .leaf .int⟩, registry) :=
    Registry.resolve_of_get? (by decide) hint
  have haccepts : Leaf.int.accepts raw = true := by
    simp only [Leaf.int, hraw, Option.isSome_some]
  have hparse : Leaf.int.parse raw = .int n := by
    simp only [Leaf.int, hraw]
  rw [judge_listed hget, FieldSpec.judge, FieldSpec.typeId, hid, hresolve]
  dsimp only
  rw [Reader.accepts_leaf, haccepts]
  dsimp only
  rw [Reader.parse_leaf, hparse]

theorem confines_int (hget : schema.get? key = some (.rule rule)) (hid : rule.typeId = "int")
    (hone : rule.oneOf = none)
    (hint : registry.shelf.get? "int" = some ⟨serial, .leaf .int⟩)
    (hraw : rawInt64? raw = some n) (hx : rawFinite? raw = some x)
    (hplace : x.rank = some place) : schema.Confines registry rule key raw n place := by
  have hoptions : rule.checkOptions key raw (.int n) = none := by
    rw [FieldRule.checkOptions, hone]
  have hjudge := judge_int hget hid hint hraw
  rw [FieldSpec.accepted, FieldRule.broken?, hoptions, Option.none_or] at hjudge
  constructor
  · intro hwithin parsed later
    have hsmall : ∀ bound measure, ¬ rule.TooSmall raw bound measure := fun bound measure h =>
      hwithin _ bound ((FieldRule.tooSmall_iff hid hx hplace).1 h).2
    have hlarge : ∀ bound measure, ¬ rule.TooLarge raw bound measure := fun bound measure h =>
      hwithin _ bound ((FieldRule.tooLarge_iff hid hx hplace).1 h).2
    rw [FieldRule.checkBounds_of_within hsmall hlarge] at hjudge
    rw [evaluateFrom, hjudge]
  · intro bound hbreaks parsed later
    have hsmall := (FieldRule.tooSmall_iff hid hx hplace).2 ⟨rfl, hbreaks⟩
    rw [FieldRule.checkBounds_of_tooSmall hsmall] at hjudge
    rw [evaluateFrom, hjudge]
  · intro hleast bound hbreaks parsed later
    have hsmall : ∀ bound measure, ¬ rule.TooSmall raw bound measure := fun bound measure h =>
      hleast bound ((FieldRule.tooSmall_iff hid hx hplace).1 h).2
    have hlarge := (FieldRule.tooLarge_iff hid hx hplace).2 ⟨rfl, hbreaks⟩
    rw [FieldRule.checkBounds_of_tooLarge hsmall hlarge] at hjudge
    rw [evaluateFrom, hjudge]

/-- Bounds of integers hold up to rounding: the integer is compared as the finite number nearest to
it. -/
theorem confines_rounded {schema : Schema} {registry : Registry} {rule : FieldRule}
    {key raw : String} {n : Int} {serial : Nat} (hget : schema.get? key = some (.rule rule))
    (hid : rule.typeId = "int") (hone : rule.oneOf = none)
    (hint : registry.shelf.get? "int" = some ⟨serial, .leaf .int⟩)
    (hraw : rawInt64? raw = some n) :
    ∃ negative size, Rounds n negative size ∧
      schema.Confines registry rule key raw n (signed negative size.units) ∧
      rule.Approximates n (signed negative size.units) := by
  obtain ⟨negative, num, rfl, hnum, hread⟩ := exists_rawFinite?_of_rawInt64? hraw
  obtain ⟨size, hratio, hrounds⟩ := exists_rounds negative hnum (by decide)
  rw [hratio] at hread
  have hn : (signed negative num).natAbs < twoPow 64 := by rwa [natAbs_signed]
  exact ⟨negative, size, hrounds, confines_int hget hid hone hint hraw hread rfl,
    FieldRule.approximates_of_rounds hrounds hn⟩

theorem confines_rounded_port :
    let rule : FieldRule := { FieldRule.ofType "int" with max := some (.ofInt 65535) }
    let schema := Schema.empty.field "PORT" (.rule rule)
    let registry := Registry.withBuiltins ", "
    schema.get? "PORT" = some (.rule rule) ∧ rawInt64? " +70000" = some 70000 ∧
      (schema.evaluate [⟨"PORT", " +70000"⟩] registry).1 =
        .error (.outOfBounds "PORT" "70000" (.ofInt 65535) .maximum .value) := by
  intro rule schema registry
  have hraw : rawInt64? " +70000" = some 70000 := by decide
  obtain ⟨negative, size, _, hconfines, happroximates⟩ :=
    @confines_rounded schema registry rule "PORT" " +70000" 70000 2 rfl rfl rfl rfl hraw
  have hbreaks : rule.Breaks (70000 * unitsPerOne) .maximum (.ofInt 65535) := by
    exact .maximum rfl (rank_ofInt (by decide)) (mul_unitsPerOne_lt (by decide))
  have hleast : ∀ least, ¬ rule.Breaks (70000 * unitsPerOne) .minimum least := by
    intro least hleast
    cases hleast with
    | minimum hmin _ _ => cases hmin
  rw [happroximates.exact (by decide)] at hconfines
  exact ⟨rfl, hraw, congrArg Prod.fst (hconfines.tooLarge hleast _ hbreaks .empty [])⟩

/-- The integer after `2 ^ 53` comes to `2 ^ 53` and is stored, although that is the greatest value
that the rule allows. -/
theorem evaluate_int_overlooked :
    let rule : FieldRule := { FieldRule.ofType "int" with max := some (.ofInt 9007199254740992) }
    let schema := Schema.empty.field "A" (.rule rule)
    rawInt64? "9007199254740993" = some 9007199254740993 ∧
      rule.Breaks (9007199254740993 * unitsPerOne) .maximum (.ofInt 9007199254740992) ∧
      (schema.evaluate [⟨"A", "9007199254740993"⟩] (Registry.withBuiltins ", ")).1 =
        .ok ⟨.ofList [("A", .int 9007199254740993)]⟩ := by
  intro rule schema
  have hraw : rawInt64? "9007199254740993" = some 9007199254740993 := by decide
  have hread : rawFinite? "9007199254740993" = some (.ofInt 9007199254740992) := by
    decide +kernel
  have hplace : (Binary64.ofInt 9007199254740992).rank =
      some ((9007199254740992 : Int) * unitsPerOne) := rank_ofInt (by decide)
  have hconfines : schema.Confines (Registry.withBuiltins ", ") rule "A" "9007199254740993"
      9007199254740993 (9007199254740992 * unitsPerOne) :=
    @confines_int rule "A" "9007199254740993" _ _ _ schema _ 2 rfl rfl rfl rfl hraw hread hplace
  have hwithin : ∀ limit bound, ¬ rule.Breaks (9007199254740992 * unitsPerOne) limit bound := by
    intro limit bound hbreaks
    cases hbreaks with
    | minimum hmin _ _ => cases hmin
    | maximum hmax hgreatest hlt =>
      rw [← Option.some.inj hmax, hplace] at hgreatest
      exact absurd hlt (Int.not_lt.2 (Int.le_of_eq (Option.some.inj hgreatest)))
  exact ⟨hraw, .maximum rfl hplace (mul_unitsPerOne_lt (by decide)),
    congrArg Prod.fst (hconfines.stores hwithin .empty [])⟩

end Schema

end TypedEnv
