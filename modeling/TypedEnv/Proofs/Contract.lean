import TypedEnv.Evaluation
import TypedEnv.Proofs.History

/-!
Readers are asked for values of accepted texts alone.

Two registries agree when the same ids have readers in both and the readers differ in the values of
rejected texts at most.  Evaluation cannot tell such registries apart: it comes to the same values
or to the same error, and it leaves registries that agree.  Nothing is asked of the readers, which
may go round in circles.  Between the question whether a text is accepted and the question for its
value the registry may grow, but the verdict stands: it depends on what ids mean, and more hops do
not revoke it.
-/

namespace TypedEnv

/-- The same verdicts, and the same values of accepted texts. -/
structure Leaf.Agrees (own other : Leaf) : Prop where
  accepts_eq : ∀ raw, own.accepts raw = other.accepts raw
  parse_eq : ∀ raw, own.accepts raw = true → own.parse raw = other.parse raw

inductive Reader.Agrees : Reader → Reader → Prop
  | leaf {own other : Leaf} : own.Agrees other → Agrees (.leaf own) (.leaf other)
  | union (expression : String) : Agrees (.union expression) (.union expression)
  | redirect (name target : String) : Agrees (.redirect name target) (.redirect name target)

def Registry.Agrees (registry other : Registry) : Prop :=
  ∀ id, Option.Rel (fun entry entry' : Entry => entry.reader.Agrees entry'.reader)
    (registry.shelf.get? id) (other.shelf.get? id)

/-- What look-ups and questions may do to a registry: ids keep their meanings, and none is lost. -/
structure Registry.Grows (registry after : Registry) : Prop where
  meaning?_eq : after.meaning? = registry.meaning?
  size_le : registry.size ≤ after.size

namespace Registry

variable {registry after later : Registry}

theorem Grows.refl (registry : Registry) : registry.Grows registry := ⟨rfl, le_refl _⟩

theorem Grows.trans (h : registry.Grows after) (hlater : after.Grows later) :
    registry.Grows later :=
  ⟨hlater.meaning?_eq.trans h.meaning?_eq, h.size_le.trans hlater.size_le⟩

theorem grows_resolve (registry : Registry) (id : String) :
    registry.Grows (registry.resolve id).2 := by
  refine ⟨registry.meaning?_resolve id, ?_⟩
  by_cases h : isUnionId id = true ∧ registry.contains id = false
  · rw [size_resolve_of_union h.1 h.2]
    exact Nat.le_succ _
  · rw [contains, Dict.contains_eq_false_iff] at h
    rw [resolve_snd, if_neg h]

end Registry

namespace Reader

variable {registry : Registry} {raw : String} {hops : Nat}

/-- The verdict of a reader while ids have given meanings. -/
def passes (meaning? : String → Option Reader) (raw : String) : (hops : Nat) → Reader → Bool
  | _, leaf own => own.accepts raw
  | 0, union _ => false
  | 0, redirect _ _ => false
  | hops + 1, union expression =>
    ((unionMembers expression).filterMap meaning?).any (passes meaning? raw hops)
  | hops + 1, redirect _ target => (meaning? target).any (passes meaning? raw hops)

theorem passes_succ {meaning? : String → Option Reader} {reader : Reader}
    (h : reader.passes meaning? raw hops = true) :
    reader.passes meaning? raw (hops + 1) = true := by
  induction hops generalizing reader with
  | zero =>
    cases reader with
    | leaf own => exact h
    | union expression => cases h
    | redirect name target => cases h
  | succ hops ih =>
    cases reader with
    | leaf own => exact h
    | union expression =>
      obtain ⟨member, hmem, hpass⟩ := List.any_eq_true.1 h
      exact List.any_eq_true.2 ⟨member, hmem, ih hpass⟩
    | redirect name target =>
      obtain ⟨found, hfound, hpass⟩ := (Option.any_eq_true _ _).1 h
      exact (Option.any_eq_true _ _).2 ⟨found, hfound, ih hpass⟩

theorem passes_mono {meaning? : String → Option Reader} {reader : Reader} {more : Nat}
    (hle : hops ≤ more) (h : reader.passes meaning? raw hops = true) :
    reader.passes meaning? raw more = true := by
  induction hle with
  | refl => exact h
  | step _ ih => exact passes_succ ih

/-- The search goes through the readers that the ids mean at its start. -/
theorem firstPassing_grows (test : Reader → Registry → Bool × Registry) {verdict : Reader → Bool}
    (htest : ∀ reader {after : Registry}, registry.Grows after →
      (test reader after).1 = verdict reader ∧ after.Grows (test reader after).2)
    (ids : List String) {after : Registry} (hafter : registry.Grows after) :
    (firstPassing test ids after).1 = (ids.filterMap registry.meaning?).find? verdict ∧
      after.Grows (firstPassing test ids after).2 := by
  induction ids generalizing after with
  | nil => exact ⟨rfl, .refl after⟩
  | cons id ids ih =>
    have hmeaning := after.map_reader_resolve id
    have hfound := after.grows_resolve id
    rw [hafter.meaning?_eq] at hmeaning
    rw [firstPassing]
    cases hr : after.resolve id with
    | mk found next =>
      rw [hr] at hmeaning hfound
      cases found with
      | none =>
        obtain ⟨hfirst, hgrows⟩ := ih (hafter.trans hfound)
        rw [List.filterMap_cons_none hmeaning.symm]
        exact ⟨hfirst, hfound.trans hgrows⟩
      | some entry =>
        obtain ⟨hverdict, hasked⟩ := htest entry.reader (hafter.trans hfound)
        rw [List.filterMap_cons_some hmeaning.symm, List.find?_cons, ← hverdict]
        dsimp only
        cases ht : test entry.reader next with
        | mk passed last =>
          rw [ht] at hasked
          cases passed with
          | true => exact ⟨rfl, hfound.trans hasked⟩
          | false =>
            obtain ⟨hfirst, hgrows⟩ := ih ((hafter.trans hfound).trans hasked)
            exact ⟨hfirst, (hfound.trans hasked).trans hgrows⟩

theorem acceptsWithin_grows (raw : String) (hops : Nat) (reader : Reader) (registry : Registry) :
    (reader.acceptsWithin raw hops registry).1 = reader.passes registry.meaning? raw hops ∧
      registry.Grows (reader.acceptsWithin raw hops registry).2 := by
  induction hops generalizing reader registry with
  | zero => cases reader <;> exact ⟨rfl, .refl registry⟩
  | succ hops ih =>
    cases reader with
    | leaf own => exact ⟨rfl, .refl registry⟩
    | union expression =>
      obtain ⟨hfirst, hgrows⟩ := firstPassing_grows (acceptsWithin raw hops)
        (fun reader {after} hafter => hafter.meaning?_eq ▸ ih reader after)
        (unionMembers expression) (.refl registry)
      refine ⟨?_, hgrows⟩
      rw [passes, ← List.isSome_find?]
      exact congrArg Option.isSome hfirst
    | redirect name target =>
      have hmeaning := registry.map_reader_resolve target
      have hfound := registry.grows_resolve target
      rw [acceptsWithin, passes, ← hmeaning]
      cases hr : registry.resolve target with
      | mk found after =>
        rw [hr] at hfound
        cases found with
        | none => exact ⟨rfl, hfound⟩
        | some entry =>
          obtain ⟨hverdict, hasked⟩ := ih entry.reader after
          rw [hfound.meaning?_eq] at hverdict
          exact ⟨hverdict, hfound.trans hasked⟩

end Reader

namespace Registry

variable {registry other : Registry}

theorem agrees_empty : empty.Agrees empty := fun _ => .none

theorem Agrees.store (h : registry.Agrees other) (id : String) {own found : Reader}
    (hreader : own.Agrees found) : (registry.store id own).Agrees (other.store id found) := by
  intro key
  rw [get?_store, get?_store]
  split
  · exact .some hreader
  · exact h key

theorem Agrees.contains_eq (h : registry.Agrees other) (id : String) :
    registry.contains id = other.contains id := by
  unfold contains Dict.contains
  rcases cases_of_rel (h id) with ⟨hl, hr⟩ | ⟨_, _, hl, hr, _⟩
  · rw [hl, hr]
  · rw [hl, hr]
    rfl

theorem Agrees.size_eq (h : registry.Agrees other) : registry.size = other.size := by
  have hkeys : registry.shelf.keys.Perm other.shelf.keys := by
    rw [List.perm_ext_iff_of_nodup (Dict.nodup_keys _) (Dict.nodup_keys _)]
    intro id
    rw [Dict.mem_keys_iff, Dict.mem_keys_iff]
    exact Bool.eq_iff_iff.1 (h.contains_eq id)
  simpa only [Dict.keys, List.length_map, size, Dict.size] using hkeys.length_eq

theorem Agrees.resolve (h : registry.Agrees other) (id : String) :
    Option.Rel (fun entry entry' : Entry => entry.reader.Agrees entry'.reader)
        (registry.resolve id).1 (other.resolve id).1 ∧
      (registry.resolve id).2.Agrees (other.resolve id).2 := by
  have hafter : (registry.resolve id).2.Agrees (other.resolve id).2 := by
    rw [resolve_snd, resolve_snd]
    rcases cases_of_rel (h id) with ⟨hl, hr⟩ | ⟨entry, entry', hl, hr, _⟩
    · simp only [hl, hr]
      split
      · exact h.store id (.union id)
      · exact h
    · rw [if_neg (by simp [hl]), if_neg (by simp [hr])]
      exact h
  by_cases hid : id = ""
  · subst hid
    exact ⟨.none, h⟩
  · rw [resolve_fst registry hid, resolve_fst other hid]
    exact ⟨hafter id, hafter⟩

end Registry

namespace Reader

variable {registry other : Registry} {own found : Reader} {raw : String}

theorem firstPassing_agrees (test : Reader → Registry → Bool × Registry)
    (htest : ∀ {own found : Reader} {registry other : Registry}, own.Agrees found →
      registry.Agrees other → (test own registry).1 = (test found other).1 ∧
        (test own registry).2.Agrees (test found other).2)
    (ids : List String) (h : registry.Agrees other) :
    Option.Rel Reader.Agrees (firstPassing test ids registry).1 (firstPassing test ids other).1 ∧
      (firstPassing test ids registry).2.Agrees (firstPassing test ids other).2 := by
  induction ids generalizing registry other with
  | nil => exact ⟨.none, h⟩
  | cons id ids ih =>
    obtain ⟨hentry, hafter⟩ := h.resolve id
    rw [firstPassing, firstPassing]
    cases hr : registry.resolve id with
    | mk entry after =>
      cases hr' : other.resolve id with
      | mk entry' after' =>
        rw [hr, hr'] at hentry hafter
        cases hentry with
        | none => exact ih hafter
        | some hreader =>
          obtain ⟨hverdict, hnext⟩ := htest hreader hafter
          dsimp only
          cases ht : test _ after with
          | mk verdict next =>
            cases ht' : test _ after' with
            | mk verdict' next' =>
              rw [ht, ht'] at hverdict hnext
              cases hverdict
              cases verdict with
              | true => exact ⟨.some hreader, hnext⟩
              | false => exact ih hnext

theorem acceptsWithin_agrees (hops : Nat) (hreader : own.Agrees found)
    (h : registry.Agrees other) :
    (own.acceptsWithin raw hops registry).1 = (found.acceptsWithin raw hops other).1 ∧
      (own.acceptsWithin raw hops registry).2.Agrees (found.acceptsWithin raw hops other).2 := by
  induction hops generalizing own found registry other with
  | zero =>
    cases hreader with
    | leaf hleaf => exact ⟨hleaf.accepts_eq raw, h⟩
    | union expression => exact ⟨rfl, h⟩
    | redirect name target => exact ⟨rfl, h⟩
  | succ hops ih =>
    cases hreader with
    | leaf hleaf => exact ⟨hleaf.accepts_eq raw, h⟩
    | union expression =>
      obtain ⟨hmember, hafter⟩ := firstPassing_agrees (acceptsWithin raw hops)
        (fun hreader h => ih hreader h) (unionMembers expression) h
      refine ⟨?_, hafter⟩
      rcases cases_of_rel hmember with ⟨hl, hr⟩ | ⟨_, _, hl, hr, _⟩
      · exact congrArg Option.isSome (hl.trans hr.symm)
      · exact (congrArg Option.isSome hl).trans (congrArg Option.isSome hr).symm
    | redirect name target =>
      obtain ⟨hentry, hafter⟩ := h.resolve target
      rw [acceptsWithin, acceptsWithin]
      cases hr : registry.resolve target with
      | mk entry after =>
        cases hr' : other.resolve target with
        | mk entry' after' =>
          rw [hr, hr'] at hentry hafter
          cases hentry with
          | none => exact ⟨rfl, hafter⟩
          | some hreader => exact ih hreader hafter

/-- The value of a text that the reader accepts; all questions on the way to it are asked of
readers that accept the text. -/
theorem parseWithin_agrees (hops : Nat) (hreader : own.Agrees found) (h : registry.Agrees other)
    (hpass : own.passes registry.meaning? raw hops = true) :
    (own.parseWithin raw hops registry).1 = (found.parseWithin raw hops other).1 ∧
      (own.parseWithin raw hops registry).2.Agrees (found.parseWithin raw hops other).2 := by
  -- `hpass` carries the induction: a reader that passes hands the question on to one that passes.
  induction hops generalizing own found registry other with
  | zero =>
    cases hreader with
    | leaf hleaf => exact ⟨hleaf.parse_eq raw hpass, h⟩
    | union expression => cases hpass
    | redirect name target => cases hpass
  | succ hops ih =>
    cases hreader with
    | leaf hleaf => exact ⟨hleaf.parse_eq raw hpass, h⟩
    | union expression =>
      obtain ⟨hmember, hafter⟩ := firstPassing_agrees (acceptsWithin raw hops)
        (fun hreader h => acceptsWithin_agrees hops hreader h) (unionMembers expression) h
      obtain ⟨hfirst, hgrows⟩ := firstPassing_grows (acceptsWithin raw hops)
        (fun reader {after} hafter =>
          hafter.meaning?_eq ▸ acceptsWithin_grows raw hops reader after)
        (unionMembers expression) (.refl registry)
      rw [parseWithin, parseWithin]
      cases hr : firstPassing (acceptsWithin raw hops) (unionMembers expression) registry with
      | mk member after =>
        cases hr' : firstPassing (acceptsWithin raw hops) (unionMembers expression) other with
        | mk member' after' =>
          rw [hr, hr'] at hmember hafter
          rw [hr] at hfirst hgrows
          cases hmember with
          | none => exact ⟨rfl, hafter⟩
          | some hreader =>
            apply ih hreader hafter
            rw [hgrows.meaning?_eq]
            exact List.find?_some hfirst.symm
    | redirect name target =>
      obtain ⟨hentry, hafter⟩ := h.resolve target
      have hmeaning := registry.map_reader_resolve target
      have hsame := registry.meaning?_resolve target
      rw [passes, ← hmeaning] at hpass
      rw [parseWithin, parseWithin]
      cases hr : registry.resolve target with
      | mk entry after =>
        cases hr' : other.resolve target with
        | mk entry' after' =>
          rw [hr, hr'] at hentry hafter
          rw [hr] at hpass hsame
          cases hentry with
          | none => exact ⟨rfl, hafter⟩
          | some hreader =>
            apply ih hreader hafter
            rw [hsame]
            exact hpass

theorem accepts_agrees (hreader : own.Agrees found) (h : registry.Agrees other) (raw : String) :
    (own.accepts raw registry).1 = (found.accepts raw other).1 ∧
      (own.accepts raw registry).2.Agrees (found.accepts raw other).2 := by
  unfold accepts hops
  rw [← h.size_eq]
  exact acceptsWithin_agrees _ hreader h

theorem parse_agrees (hreader : own.Agrees found) (h : registry.Agrees other) (raw : String)
    (hraw : (own.accepts raw registry).1 = true) :
    (own.parse raw (own.accepts raw registry).2).1 =
        (found.parse raw (found.accepts raw other).2).1 ∧
      (own.parse raw (own.accepts raw registry).2).2.Agrees
        (found.parse raw (found.accepts raw other).2).2 := by
  obtain ⟨hverdict, hgrows⟩ := acceptsWithin_grows raw (Reader.hops registry) own registry
  have hafter := (accepts_agrees hreader h raw).2
  have hmore : Reader.hops registry ≤ Reader.hops (own.accepts raw registry).2 :=
    Nat.add_le_add_right (Nat.mul_le_mul_left 2 hgrows.size_le) 2
  unfold parse
  rw [show Reader.hops (found.accepts raw other).2 = Reader.hops (own.accepts raw registry).2 from
    by rw [Reader.hops, Reader.hops, hafter.size_eq]]
  apply parseWithin_agrees _ hreader hafter
  apply passes_mono hmore
  rw [accepts, hgrows.meaning?_eq, ← hverdict]
  exact hraw

end Reader

namespace Schema

variable {schema : Schema} {registry other : Registry}

theorem judge_field_agrees (h : registry.Agrees other) (spec : FieldSpec) (key raw : String) :
    (spec.judge key raw registry).1 = (spec.judge key raw other).1 ∧
      (spec.judge key raw registry).2.Agrees (spec.judge key raw other).2 := by
  obtain ⟨hentry, hafter⟩ := h.resolve spec.typeId
  unfold FieldSpec.judge
  cases hr : registry.resolve spec.typeId with
  | mk entry after =>
    cases hr' : other.resolve spec.typeId with
    | mk entry' after' =>
      rw [hr, hr'] at hentry hafter
      cases hentry with
      | none => exact ⟨rfl, hafter⟩
      | @some entry entry' hreader =>
        obtain ⟨hverdict, hasked⟩ := Reader.accepts_agrees hreader hafter raw
        have hparsed := Reader.parse_agrees hreader hafter raw
        dsimp only
        cases ha : entry.reader.accepts raw after with
        | mk verdict next =>
          cases ha' : entry'.reader.accepts raw after' with
          | mk verdict' next' =>
            rw [ha, ha'] at hverdict hasked hparsed
            cases hverdict
            cases verdict with
            | false => exact ⟨rfl, hasked⟩
            | true =>
              obtain ⟨hvalue, hlast⟩ := hparsed rfl
              exact ⟨congrArg (spec.accepted key raw) hvalue, hlast⟩

theorem judge_agrees (schema : Schema) (h : registry.Agrees other) (a : Assignment) :
    (schema.judge a registry).1 = (schema.judge a other).1 ∧
      (schema.judge a registry).2.Agrees (schema.judge a other).2 := by
  unfold judge
  split
  · exact ⟨rfl, h⟩
  · split
    · exact ⟨rfl, h⟩
    · exact judge_field_agrees h _ a.key a.value

theorem evaluateFrom_agrees (h : registry.Agrees other) (parsed : Parsed)
    (assignments : List Assignment) :
    (schema.evaluateFrom parsed assignments registry).1 =
        (schema.evaluateFrom parsed assignments other).1 ∧
      (schema.evaluateFrom parsed assignments registry).2.Agrees
        (schema.evaluateFrom parsed assignments other).2 := by
  -- Both runs go in step: before each assignment the registries agree, and so do the values.
  induction assignments generalizing parsed registry other with
  | nil => exact ⟨rfl, h⟩
  | cons a later ih =>
    obtain ⟨houtcome, hnext⟩ := judge_agrees schema h a
    rw [evaluateFrom, evaluateFrom]
    cases hj : schema.judge a registry with
    | mk outcome after =>
      cases hk : schema.judge a other with
      | mk outcome' after' =>
        rw [hj, hk] at houtcome hnext
        cases houtcome
        cases outcome with
        | store value => exact ih hnext _
        | skip => exact ih hnext _
        | fatal error => exact ⟨rfl, hnext⟩

/-- What readers make of texts that they reject shows in no result. -/
theorem evaluate_agrees (h : registry.Agrees other) (schema : Schema)
    (assignments : List Assignment) :
    (schema.evaluate assignments registry).1 = (schema.evaluate assignments other).1 ∧
      (schema.evaluate assignments registry).2.Agrees (schema.evaluate assignments other).2 :=
  evaluateFrom_agrees h .empty assignments

theorem evaluate_agrees_rejected :
    let lenient : Leaf := { Leaf.int with parse := fun raw => (rawInt64? raw).elim .null .int }
    let aliased := Registry.empty.register (.redirect "whole" "int")
    let registry := aliased.register (.leaf .int)
    let other := aliased.register (.leaf lenient)
    let schema := (Schema.empty.field "A" (.type "whole|int")).field "B"
      (.rule { FieldRule.ofType "whole" with oneOf := some [.int 8] })
    let assignments : List Assignment := [⟨"A", "x"⟩, ⟨"A", "7"⟩, ⟨"B", "x"⟩, ⟨"B", "9"⟩]
    registry.Agrees other ∧ Leaf.int.parse "x" = .string "x" ∧ lenient.parse "x" = .null ∧
      (schema.evaluate assignments registry).1 = (schema.evaluate assignments other).1 := by
  intro lenient aliased registry other schema assignments
  have hleaf : Leaf.int.Agrees lenient := by
    refine ⟨fun _ => rfl, fun raw hraw => ?_⟩
    obtain ⟨n, hn⟩ := Option.isSome_iff_exists.1 hraw
    simp only [lenient, Leaf.int, hn, Option.elim_some]
  have haliased : aliased.Agrees aliased :=
    Registry.agrees_empty.store "whole" (.redirect "whole" "int")
  have h : registry.Agrees other := haliased.store "int" (.leaf hleaf)
  exact ⟨h, rfl, rfl, (evaluate_agrees h schema assignments).1⟩

end Schema

end TypedEnv
