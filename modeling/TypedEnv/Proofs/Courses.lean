import TypedEnv.Proofs.History

/-!
The course of a question.  A reader that names other ids asks their readers in turn, and nothing but
the registry keeps it from being asked again before it has answered.  A course is one run of a
question to its end, without any bound on hops; a question that goes round in a circle has none.
In every registry of leaves and of unions with a separator all questions have a course, with at most
two readers open at once.  With as many hops as a course is deep the bounded question takes that
course, so the bound shows in no answer to a question that has one.
-/

namespace TypedEnv

namespace Reader

mutual

/-- A course of the question whether a reader accepts a text: how many readers are open at once, how
many others the reader asks, and what comes of it. -/
inductive AcceptCourse (raw : String) :
    Reader → Registry → (depth asked : Nat) → Bool × Registry → Prop
  | leaf (own : Leaf) (registry : Registry) :
      AcceptCourse raw (.leaf own) registry 1 0 (own.accepts raw, registry)
  | union {expression : String} {registry after : Registry} {depth asked : Nat}
      {found : Option Reader} :
      SearchCourse raw (unionMembers expression) registry depth asked (found, after) →
      AcceptCourse raw (.union expression) registry (depth + 1) asked (found.isSome, after)
  | lost {name target : String} {registry after : Registry} :
      registry.resolve target = (none, after) →
      AcceptCourse raw (.redirect name target) registry 1 0 (false, after)
  | passedOn {name target : String} {registry after : Registry} {entry : Entry}
      {depth asked : Nat} {result : Bool × Registry} :
      registry.resolve target = (some entry, after) →
      AcceptCourse raw entry.reader after depth asked result →
      AcceptCourse raw (.redirect name target) registry (depth + 1) 1 result

inductive SearchCourse (raw : String) :
    List String → Registry → (depth asked : Nat) → Option Reader × Registry → Prop
  | nil (registry : Registry) : SearchCourse raw [] registry 0 0 (none, registry)
  | unknown {id : String} {ids : List String} {registry after : Registry} {depth asked : Nat}
      {result : Option Reader × Registry} :
      registry.resolve id = (none, after) → SearchCourse raw ids after depth asked result →
      SearchCourse raw (id :: ids) registry depth asked result
  | found {id : String} {ids : List String} {registry after last : Registry} {entry : Entry}
      {depth asked : Nat} :
      registry.resolve id = (some entry, after) →
      AcceptCourse raw entry.reader after depth asked (true, last) →
      SearchCourse raw (id :: ids) registry depth 1 (some entry.reader, last)
  | refused {id : String} {ids : List String} {registry after next : Registry} {entry : Entry}
      {depth asked depthLater askedLater : Nat} {result : Option Reader × Registry} :
      registry.resolve id = (some entry, after) →
      AcceptCourse raw entry.reader after depth asked (false, next) →
      SearchCourse raw ids next depthLater askedLater result →
      SearchCourse raw (id :: ids) registry (max depth depthLater) (askedLater + 1) result

end

/-- A course of the question for the value of a text.  A union searches again, and then asks the
member that it has found. -/
inductive ParseCourse (raw : String) :
    Reader → Registry → (depth asked : Nat) → Document × Registry → Prop
  | leaf (own : Leaf) (registry : Registry) :
      ParseCourse raw (.leaf own) registry 1 0 (own.parse raw, registry)
  | unmatched {expression : String} {registry after : Registry} {depth asked : Nat} :
      SearchCourse raw (unionMembers expression) registry depth asked (none, after) →
      ParseCourse raw (.union expression) registry (depth + 1) asked (.string raw, after)
  | matched {expression : String} {registry after : Registry} {member : Reader}
      {depth asked depthMember askedMember : Nat} {result : Document × Registry} :
      SearchCourse raw (unionMembers expression) registry depth asked (some member, after) →
      ParseCourse raw member after depthMember askedMember result →
      ParseCourse raw (.union expression) registry (max depth depthMember + 1) asked result
  | lost {name target : String} {registry after : Registry} :
      registry.resolve target = (none, after) →
      ParseCourse raw (.redirect name target) registry 1 0 (.null, after)
  | passedOn {name target : String} {registry after : Registry} {entry : Entry}
      {depth asked : Nat} {result : Document × Registry} :
      registry.resolve target = (some entry, after) →
      ParseCourse raw entry.reader after depth asked result →
      ParseCourse raw (.redirect name target) registry (depth + 1) 1 result

def width : Reader → Nat
  | leaf _ => 0
  | union expression => (unionMembers expression).length
  | redirect _ _ => 1

variable {raw expression : String} {registry after : Registry} {reader : Reader} {ids : List String}
  {depth asked hops : Nat}

theorem AcceptCourse.depth_pos {result : Bool × Registry}
    (h : AcceptCourse raw reader registry depth asked result) : 0 < depth := by
  cases h with
  | leaf own => exact Nat.one_pos
  | union hsearch => exact Nat.succ_pos _
  | lost hresolve => exact Nat.one_pos
  | passedOn hresolve hcourse => exact Nat.succ_pos _

theorem ParseCourse.depth_pos {result : Document × Registry}
    (h : ParseCourse raw reader registry depth asked result) : 0 < depth := by
  cases h with
  | leaf own => exact Nat.one_pos
  | unmatched hsearch => exact Nat.succ_pos _
  | matched hsearch hmember => exact Nat.succ_pos _
  | lost hresolve => exact Nat.one_pos
  | passedOn hresolve hcourse => exact Nat.succ_pos _

/-- The search takes its course, if the questions of the search take theirs. -/
theorem firstPassing_of_course
    (htest : ∀ {reader : Reader} {registry : Registry} {depth asked : Nat}
      {result : Bool × Registry}, AcceptCourse raw reader registry depth asked result →
      depth ≤ hops → reader.acceptsWithin raw hops registry = result)
    {result : Option Reader × Registry} (h : SearchCourse raw ids registry depth asked result)
    (hle : depth ≤ hops) : firstPassing (acceptsWithin raw hops) ids registry = result := by
  induction ids generalizing registry depth asked with
  | nil =>
    cases h with
    | nil => rfl
  | cons id ids ih =>
    rw [firstPassing]
    cases h with
    | unknown hresolve hlater =>
      rw [hresolve]
      exact ih hlater hle
    | found hresolve hcourse =>
      rw [hresolve]
      dsimp only
      rw [htest hcourse hle]
    | refused hresolve hcourse hlater =>
      rw [hresolve]
      dsimp only
      rw [htest hcourse (Nat.le_trans (Nat.le_max_left _ _) hle)]
      exact ih hlater (Nat.le_trans (Nat.le_max_right _ _) hle)

theorem acceptsWithin_of_course {result : Bool × Registry}
    (h : AcceptCourse raw reader registry depth asked result) (hle : depth ≤ hops) :
    reader.acceptsWithin raw hops registry = result := by
  -- The induction is on the hops, as a course and the searches in it are mutual.
  induction hops generalizing reader registry depth asked result with
  | zero => exact absurd hle (Nat.not_le.2 h.depth_pos)
  | succ hops ih =>
    cases h with
    | leaf own => rfl
    | union hsearch =>
      rw [acceptsWithin, firstPassing_of_course ih hsearch (Nat.le_of_succ_le_succ hle)]
    | lost hresolve => rw [acceptsWithin, hresolve]
    | passedOn hresolve hcourse =>
      rw [acceptsWithin, hresolve]
      exact ih hcourse (Nat.le_of_succ_le_succ hle)

theorem parseWithin_of_course {result : Document × Registry}
    (h : ParseCourse raw reader registry depth asked result) (hle : depth ≤ hops) :
    reader.parseWithin raw hops registry = result := by
  induction hops generalizing reader registry depth asked result with
  | zero => exact absurd hle (Nat.not_le.2 h.depth_pos)
  | succ hops ih =>
    cases h with
    | leaf own => rfl
    | unmatched hsearch =>
      rw [parseWithin, firstPassing_of_course acceptsWithin_of_course hsearch
        (Nat.le_of_succ_le_succ hle)]
    | matched hsearch hmember =>
      have hboth := Nat.max_le.1 (Nat.le_of_succ_le_succ hle)
      rw [parseWithin, firstPassing_of_course acceptsWithin_of_course hsearch hboth.1]
      exact ih hmember hboth.2
    | lost hresolve => rw [parseWithin, hresolve]
    | passedOn hresolve hcourse =>
      rw [parseWithin, hresolve]
      exact ih hcourse (Nat.le_of_succ_le_succ hle)

/-- A reader that stands for itself has no course. -/
theorem not_acceptCourse_circle {name : String} {serial : Nat}
    (h : registry.resolve name = (some ⟨serial, .redirect name name⟩, registry))
    (result : Bool × Registry) :
    ¬ AcceptCourse raw (.redirect name name) registry depth asked result := by
  induction depth generalizing asked with
  | zero => exact fun hcourse => absurd hcourse.depth_pos (Nat.lt_irrefl 0)
  | succ depth ih =>
    intro hcourse
    cases hcourse with
    | lost hresolve =>
      rw [h] at hresolve
      cases hresolve
    | passedOn hresolve hlater =>
      rw [h] at hresolve
      cases hresolve
      exact ih hlater

theorem exists_searchCourse (h : registry.Grounded) (raw : String)
    (hids : ∀ id ∈ ids, isUnionId id = false) :
    ∃ depth asked found, SearchCourse raw ids registry depth asked (found, registry) ∧
      depth ≤ 1 ∧ asked ≤ ids.length ∧ ∀ member ∈ found, ∃ own, member = .leaf own := by
  induction ids with
  | nil => exact ⟨0, 0, none, .nil registry, Nat.zero_le 1, Nat.le_refl 0, nofun⟩
  | cons id ids ih =>
    rw [List.forall_mem_cons] at hids
    obtain ⟨depth, asked, found, hlater, hdepth, hasked, hfound⟩ := ih hids.2
    rcases h.resolve_plain hids.1 with ⟨hr, _⟩ | ⟨serial, own, hr, _⟩
    · exact ⟨depth, asked, found, .unknown hr hlater, hdepth, Nat.le_succ_of_le hasked, hfound⟩
    · have hleaf : AcceptCourse raw (.leaf own) registry 1 0 (own.accepts raw, registry) :=
        .leaf own registry
      cases ha : own.accepts raw with
      | true =>
        rw [ha] at hleaf
        exact ⟨1, 1, some (.leaf own), .found hr hleaf, Nat.le_refl 1,
          Nat.succ_le_succ (Nat.zero_le _), fun member hm => ⟨own, (Option.some.inj hm).symm⟩⟩
      | false =>
        rw [ha] at hleaf
        exact ⟨max 1 depth, asked + 1, found, .refused hr hleaf hlater,
          Nat.max_le.2 ⟨Nat.le_refl 1, hdepth⟩, Nat.succ_le_succ hasked, hfound⟩

theorem exists_acceptCourse (h : registry.Grounded) (hr : reader.Grounded) (raw : String) :
    ∃ depth asked, AcceptCourse raw reader registry depth asked (reader.accepts raw registry) ∧
      depth ≤ 2 ∧ asked ≤ reader.width := by
  suffices hcourse : ∃ depth asked result, AcceptCourse raw reader registry depth asked result ∧
      depth ≤ 2 ∧ asked ≤ reader.width by
    obtain ⟨depth, asked, result, hcourse, hdepth, hasked⟩ := hcourse
    have hresult : reader.accepts raw registry = result :=
      acceptsWithin_of_course hcourse (Nat.le_trans hdepth (Nat.le_add_left 2 _))
    exact ⟨depth, asked, hresult ▸ hcourse, hdepth, hasked⟩
  cases reader with
  | leaf own => exact ⟨1, 0, _, .leaf own registry, by decide, Nat.le_refl 0⟩
  | union expression =>
    obtain ⟨depth, asked, found, hsearch, hdepth, hasked, _⟩ :=
      exists_searchCourse h raw fun _ hm => isUnionId_of_mem_unionMembers hm
    exact ⟨depth + 1, asked, _, .union hsearch, Nat.succ_le_succ hdepth, hasked⟩
  | redirect name target => cases hr

theorem exists_parseCourse (h : registry.Grounded) (hr : reader.Grounded) (raw : String) :
    ∃ depth asked, ParseCourse raw reader registry depth asked (reader.parse raw registry) ∧
      depth ≤ 2 ∧ asked ≤ reader.width := by
  suffices hcourse : ∃ depth asked result, ParseCourse raw reader registry depth asked result ∧
      depth ≤ 2 ∧ asked ≤ reader.width by
    obtain ⟨depth, asked, result, hcourse, hdepth, hasked⟩ := hcourse
    have hresult : reader.parse raw registry = result :=
      parseWithin_of_course hcourse (Nat.le_trans hdepth (Nat.le_add_left 2 _))
    exact ⟨depth, asked, hresult ▸ hcourse, hdepth, hasked⟩
  cases reader with
  | leaf own => exact ⟨1, 0, _, .leaf own registry, by decide, Nat.le_refl 0⟩
  | union expression =>
    obtain ⟨depth, asked, found, hsearch, hdepth, hasked, hfound⟩ :=
      exists_searchCourse h raw fun _ hm => isUnionId_of_mem_unionMembers hm
    cases found with
    | none => exact ⟨depth + 1, asked, _, .unmatched hsearch, Nat.succ_le_succ hdepth, hasked⟩
    | some member =>
      obtain ⟨own, rfl⟩ := hfound member rfl
      exact ⟨max depth 1 + 1, asked, _, .matched hsearch (.leaf own registry),
        Nat.succ_le_succ (Nat.max_le.2 ⟨hdepth, Nat.le_refl 1⟩), hasked⟩
  | redirect name target => cases hr

end Reader

namespace Registry

/-- All questions of a reader end, whatever the text: at most two readers are open at once, a search
asks at most as many readers as there are members, and members mean nothing or a leaf. -/
structure Settles (registry : Registry) (reader : Reader) : Prop where
  accepts : ∀ raw, ∃ depth asked,
    Reader.AcceptCourse raw reader registry depth asked (reader.accepts raw registry) ∧
      depth ≤ 2 ∧ asked ≤ reader.width
  parse : ∀ raw, ∃ depth asked,
    Reader.ParseCourse raw reader registry depth asked (reader.parse raw registry) ∧
      depth ≤ 2 ∧ asked ≤ reader.width
  members : ∀ expression, reader = .union expression → ∀ member ∈ unionMembers expression,
    isUnionId member = false ∧
      (registry.resolve member = (none, registry) ∨
        ∃ serial own, registry.resolve member = (some ⟨serial, .leaf own⟩, registry))

theorem Grounded.settles {registry : Registry} {reader : Reader} (h : registry.Grounded)
    (hr : reader.Grounded) : registry.Settles reader := by
  constructor
  · exact Reader.exists_acceptCourse h hr
  · exact Reader.exists_parseCourse h hr
  · intro expression _ member hmem
    have hplain : isUnionId member = false := isUnionId_of_mem_unionMembers hmem
    refine ⟨hplain, (h.resolve_plain hplain).imp And.left ?_⟩
    rintro ⟨serial, own, hresolve, _⟩
    exact ⟨serial, own, hresolve⟩

/-- In every registry that registrations of grounded readers, look-ups and questions lead to, the
readers of all ids settle, also when they are asked later on. -/
theorem settles_run {start : Registry}
    (hstart : start = empty ∨ ∃ delimiter, start = withBuiltins delimiter)
    {history later : List Operation} (hh : ∀ operation ∈ history, operation.Grounded)
    (hlater : ∀ operation ∈ later, operation.Grounded) {id : String} {entry : Entry}
    {after : Registry} (hr : (start.run history).resolve id = (some entry, after)) :
    (after.run later).Settles entry.reader := by
  have hgrounded : start.Grounded := by
    rcases hstart with rfl | ⟨delimiter, rfl⟩
    · exact grounded_empty
    · exact grounded_withBuiltins delimiter
  obtain ⟨_, hafter, hreader, _⟩ := (hgrounded.run hh).found hr
  exact (hafter.run hlater).settles hreader

theorem settles_run_replaced :
    let history : List Operation := [.register (.union "int|flag"), .accepts "int|flag" "7"]
    let later : List Operation := [.register (.leaf (.never "int|flag")), .parse "flag|int" "x"]
    (∀ operation ∈ history, operation.Grounded) ∧ (∀ operation ∈ later, operation.Grounded) ∧
      (((withBuiltins ", ").run history).run later).Settles (.union "int|flag") := by
  intro history later
  have hh : ∀ operation ∈ history, operation.Grounded := by decide
  have hlater : ∀ operation ∈ later, operation.Grounded := by decide
  exact ⟨hh, hlater, settles_run (Or.inr ⟨", ", rfl⟩) hh hlater
    (resolve_of_get? (show "int|flag" ≠ "" by decide) rfl)⟩

end Registry

end TypedEnv
