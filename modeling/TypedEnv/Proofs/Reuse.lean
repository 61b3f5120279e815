import TypedEnv.Builder
import TypedEnv.Proofs.History
import TypedEnv.Proofs.Judgement

/-!
Parsers in use.  Calls on a parser leave everything as it was but the registry, and the registry
only grows: a parse looks up the type ids of the fields that are assigned, up to the first fatal
assignment, and each union among them is stored by the first look-up.  No reply shows whether a
call was made before.
-/

namespace TypedEnv

namespace Registry

variable {registry after : Registry} {ids : List String}

/-- A registry with unions for some ids on top of what it held. -/
structure GrownBy (registry after : Registry) (ids : List String) : Prop where
  kept : ∀ id entry, registry.shelf.get? id = some entry → after.shelf.get? id = some entry
  added : ∀ id ∈ ids, isUnionId id = true → registry.contains id = false →
    ∃ serial, registry.nextSerial ≤ serial ∧ after.shelf.get? id = some ⟨serial, .union id⟩
  nothing_else : ∀ id, registry.contains id = false → after.contains id = true →
    isUnionId id = true ∧ id ∈ ids
  instance_inj : ∀ id id' entry entry', after.shelf.get? id = some entry →
    after.shelf.get? id' = some entry' → entry.serial = entry'.serial → id = id'

theorem grounded_of_mem_resolve {operation : Operation}
    (h : operation ∈ ids.map Operation.resolve) : operation.Grounded := by
  obtain ⟨own, _, rfl⟩ := List.mem_map.1 h
  trivial

theorem not_registers_of_mem_resolve {operation : Operation} {id : String}
    (h : operation ∈ ids.map Operation.resolve) : ¬ operation.Registers id := by
  obtain ⟨own, _, rfl⟩ := List.mem_map.1 h
  exact not_false

theorem contains_run_resolve (h : registry.Grounded) (id : String) :
    (registry.run (ids.map .resolve)).contains id = true ↔
      registry.contains id = true ∨ isUnionId id = true ∧ id ∈ ids := by
  rw [contains_run h fun _ => grounded_of_mem_resolve]
  have hnone : ¬ ∃ operation ∈ ids.map Operation.resolve, operation.Registers id :=
    fun ⟨operation, ho, hr⟩ => not_registers_of_mem_resolve ho hr
  have hlooked : (∃ operation ∈ ids.map Operation.resolve, operation.LooksUp id) ↔ id ∈ ids := by
    constructor
    · rintro ⟨operation, ho, hl⟩
      obtain ⟨own, hown, rfl⟩ := List.mem_map.1 ho
      exact (show own = id from hl) ▸ hown
    · exact fun hid => ⟨.resolve id, List.mem_map_of_mem hid, rfl⟩
  rw [or_iff_right_of_imp fun hr => absurd hr hnone, hlooked]

theorem entry_run_resolve (h : registry.Grounded) :
    registry.nextSerial ≤ (registry.run (ids.map .resolve)).nextSerial ∧
      ∀ {id entry}, (registry.run (ids.map .resolve)).shelf.get? id = some entry →
        registry.shelf.get? id = some entry ∨
          entry.reader = .union id ∧ registry.nextSerial ≤ entry.serial := by
  apply h.run_induction (motive := fun current =>
    registry.nextSerial ≤ current.nextSerial ∧
      ∀ {id entry}, current.shelf.get? id = some entry →
        registry.shelf.get? id = some entry ∨
          entry.reader = .union id ∧ registry.nextSerial ≤ entry.serial)
    (fun _ => grounded_of_mem_resolve) ⟨le_refl _, Or.inl⟩
  intro operation ho current hcurrent ⟨hle, hentries⟩
  obtain ⟨own, _, rfl⟩ := List.mem_map.1 ho
  show registry.nextSerial ≤ (current.resolve own).2.nextSerial ∧
    ∀ {id entry}, (current.resolve own).2.shelf.get? id = some entry → _
  rw [resolve_snd]
  split
  · refine ⟨Nat.le_succ_of_le hle, fun {id entry} he => ?_⟩
    rw [get?_store] at he
    split at he
    · next hid =>
      cases he
      exact Or.inr ⟨congrArg Reader.union hid.symm, hle⟩
    · exact hentries he
  · exact ⟨hle, hentries⟩

theorem grownBy_run_resolve (h : registry.Grounded) (hn : registry.Numbered) (ids : List String) :
    registry.GrownBy (registry.run (ids.map .resolve)) ids := by
  have hnumbered : (registry.run (ids.map .resolve)).Numbered :=
    hn.run h fun _ => grounded_of_mem_resolve
  constructor
  case kept =>
    intro id entry he
    exact get?_run_of_some h he (fun _ => grounded_of_mem_resolve)
      fun _ => not_registers_of_mem_resolve
  case added =>
    intro id hid hu hc
    have hafter := (contains_run_resolve h id).2 (Or.inr ⟨hu, hid⟩)
    obtain ⟨⟨serial, reader⟩, he⟩ := Option.isSome_iff_exists.1 hafter
    rcases (entry_run_resolve h).2 he with hold | ⟨hunion, hserial⟩
    · rw [Dict.contains_eq_false_iff.1 hc] at hold
      cases hold
    · cases hunion
      exact ⟨serial, hserial, he⟩
  case nothing_else =>
    intro id hc hafter
    exact ((contains_run_resolve h id).1 hafter).resolve_left (Bool.eq_false_iff.1 hc)
  case instance_inj => exact fun id id' entry entry' he he' hserial => hnumbered.inj he he' hserial

theorem meaning?_run_resolve (h : registry.Grounded) (ids : List String) :
    (registry.run (ids.map .resolve)).meaning? = registry.meaning? := by
  apply h.run_induction (motive := fun current => current.meaning? = registry.meaning?)
    (fun _ => grounded_of_mem_resolve) rfl
  intro operation ho current _ hm
  obtain ⟨own, _, rfl⟩ := List.mem_map.1 ho
  exact (current.meaning?_resolve own).trans hm

theorem run_register (registry : Registry) (readers : List Reader) :
    registry.run (readers.map .register) = registry.registerAll readers := by
  unfold run registerAll
  rw [List.foldl_map]
  rfl

theorem Numbered.registerAll (h : registry.Numbered) (hg : registry.Grounded)
    {readers : List Reader} (hr : ∀ reader ∈ readers, reader.Grounded) :
    (registry.registerAll readers).Numbered := by
  rw [← run_register]
  apply h.run hg
  intro operation ho
  obtain ⟨reader, hmem, rfl⟩ := List.mem_map.1 ho
  exact hr reader hmem

theorem numbered_withBuiltins (delimiter : String) : (withBuiltins delimiter).Numbered := by
  apply numbered_empty.registerAll grounded_empty
  intro reader hr
  obtain ⟨own, _, rfl⟩ := List.mem_map.1 hr
  trivial

end Registry

namespace Schema

variable {schema : Schema} {registry : Registry} {assignments processed : List Assignment}
  {a : Assignment}

/-- The assignments that a parse comes to: all of them, or those up to the first fatal one. -/
inductive Processed (schema : Schema) (registry : Registry) :
    List Assignment → List Assignment → Prop
  | all {assignments : List Assignment} :
      (∀ a ∈ assignments, ∀ error, ¬ schema.Judged registry a (.fatal error)) →
      Processed schema registry assignments assignments
  | upTo {before : List Assignment} {a : Assignment} {after : List Assignment} {error : Error} :
      (∀ earlier ∈ before, ∀ other, ¬ schema.Judged registry earlier (.fatal other)) →
      schema.Judged registry a (.fatal error) →
      Processed schema registry (before ++ a :: after) (before ++ [a])

theorem Processed.cons (ha : ∀ error, ¬ schema.Judged registry a (.fatal error))
    (h : schema.Processed registry assignments processed) :
    schema.Processed registry (a :: assignments) (a :: processed) := by
  cases h with
  | all hall => exact .all (List.forall_mem_cons.2 ⟨ha, hall⟩)
  | @upTo before fatal after _ hbefore hfatal =>
    exact @Processed.upTo _ _ (a :: before) _ _ _ (List.forall_mem_cons.2 ⟨ha, hbefore⟩) hfatal

def typeIds (schema : Schema) (assignments : List Assignment) : List String :=
  assignments.filterMap fun a => (schema.get? a.key).map FieldSpec.typeId

theorem typeIds_cons (schema : Schema) (a : Assignment) (later : List Assignment) :
    schema.typeIds (a :: later) = schema.typeIds [a] ++ schema.typeIds later :=
  List.filterMap_append (l := [a])

theorem judge_snd_eq_run (schema : Schema) (h : registry.Grounded) (a : Assignment) :
    (schema.judge a registry).2 = registry.run ((schema.typeIds [a]).map .resolve) := by
  unfold judge typeIds
  split
  · next hempty =>
    rw [List.filterMap_cons_none (by rw [get?_of_isEmpty hempty]; rfl)]
    rfl
  · cases hget : schema.get? a.key with
    | none =>
      rw [List.filterMap_cons_none (by rw [hget]; rfl)]
      rfl
    | some spec =>
      rw [List.filterMap_cons_some (by rw [hget]; rfl)]
      dsimp only
      rw [judge_field h]
      rfl

/-- Evaluation leaves what the look-ups for the processed assignments leave, whichever registry says
which of them is fatal. -/
theorem evaluateFrom_snd_eq_run (schema : Schema) (h : registry.Grounded) {after : Registry}
    (hafter : after.Grounded) (hm : after.meaning? = registry.meaning?) (parsed : Parsed)
    (assignments : List Assignment) :
    ∃ processed, schema.Processed registry assignments processed ∧
      (schema.evaluateFrom parsed assignments after).2 =
        after.run ((schema.typeIds processed).map .resolve) := by
  induction assignments generalizing parsed after with
  | nil => exact ⟨[], .all (List.forall_mem_nil _), rfl⟩
  | cons a later ih =>
    have houtcome : schema.Judged registry a (schema.judge a after).1 :=
      (judged_iff h).2 (judge_fst_congr h hafter hm.symm a)
    have hnext : (schema.judge a after).2.Grounded := (judge_snd hafter a).1
    have hnextm : (schema.judge a after).2.meaning? = after.meaning? := (judge_snd hafter a).2
    have hlooked := judge_snd_eq_run schema hafter a
    -- An assignment that is not fatal is followed by what the rest comes to.
    have hrest : ∀ parsed, (∀ error, (schema.judge a after).1 ≠ .fatal error) →
        ∃ processed, schema.Processed registry (a :: later) processed ∧
          (schema.evaluateFrom parsed later (schema.judge a after).2).2 =
            after.run ((schema.typeIds processed).map .resolve) := by
      intro parsed hne
      obtain ⟨processed, hprocessed, hrun⟩ := ih hnext (hnextm.trans hm) parsed
      refine ⟨a :: processed, hprocessed.cons fun error hfatal => ?_, ?_⟩
      · exact hne error (((judged_iff h).1 houtcome).symm.trans ((judged_iff h).1 hfatal))
      · rw [hrun, typeIds_cons, List.map_append, Registry.run_append, ← hlooked]
    rw [evaluateFrom]
    cases hj : schema.judge a after with
    | mk outcome next =>
      rw [hj] at houtcome hrest hlooked
      cases outcome with
      | store value => exact hrest _ fun error he => Outcome.noConfusion he
      | skip => exact hrest _ fun error he => Outcome.noConfusion he
      | fatal error =>
        exact ⟨[a], @Processed.upTo _ _ [] _ _ _ (List.forall_mem_nil _) houtcome, hlooked⟩

theorem evaluate_fst_congr (h : registry.Grounded) {after : Registry} (hafter : after.Grounded)
    (hm : after.meaning? = registry.meaning?) (assignments : List Assignment) :
    (schema.evaluate assignments after).1 = (schema.evaluate assignments registry).1 := by
  unfold evaluate
  rw [evaluateFrom_fst h hafter hm, evaluateFrom_fst h h rfl]

end Schema

inductive Parser.Call where
  | parseText (text : String)
  | parseFile (host : Host)
  | populate (parsed : Parsed) (environment : Environment)

inductive Parser.Reply where
  | parsed (result : Except Error Parsed)
  | populated (result : Except Error PopulateEnd)

namespace Parser

def perform (parser : Parser) : Call → Reply × Parser
  | .parseText text =>
    match parser.parseText text with
    | (result, parser) => (.parsed result, parser)
  | .parseFile host =>
    match parser.parseFile host with
    | (result, parser) => (.parsed result, parser)
  | .populate parsed environment =>
    (.populated (parser.populateWith parsed environment), parser)

def run (parser : Parser) (calls : List Call) : Parser :=
  calls.foldl (fun parser call => (parser.perform call).2) parser

/-- A parser with the options of a fresh one, and with a registry in which ids mean the same. -/
structure Continues (fresh used : Parser) : Prop where
  path_eq : used.path = fresh.path
  schema_eq : used.schema = fresh.schema
  delimiter_eq : used.delimiter = fresh.delimiter
  populate_eq : used.populate = fresh.populate
  grounded : used.registry.Grounded
  numbered : used.registry.Numbered
  meaning?_eq : used.registry.meaning? = fresh.registry.meaning?

variable {fresh used : Parser} {call : Call} {calls : List Call} {text : String}

theorem Continues.refl (h : fresh.registry.Grounded) (hn : fresh.registry.Numbered) :
    fresh.Continues fresh := ⟨rfl, rfl, rfl, rfl, h, hn, rfl⟩

theorem Continues.lookUp (h : fresh.Continues used) (ids : List String) :
    fresh.Continues { used with registry := used.registry.run (ids.map .resolve) } where
  path_eq := h.path_eq
  schema_eq := h.schema_eq
  delimiter_eq := h.delimiter_eq
  populate_eq := h.populate_eq
  grounded := h.grounded.run fun _ => Registry.grounded_of_mem_resolve
  numbered := h.numbered.run h.grounded fun _ => Registry.grounded_of_mem_resolve
  meaning?_eq := (Registry.meaning?_run_resolve h.grounded ids).trans h.meaning?_eq

theorem Continues.parseText (h : fresh.Continues used) (hfresh : fresh.registry.Grounded)
    (text : String) :
    ∃ processed, fresh.schema.Processed fresh.registry (Assignment.ofText text) processed ∧
      used.parseText text = ((fresh.parseText text).1, { used with
        registry := used.registry.run ((fresh.schema.typeIds processed).map .resolve) }) := by
  have hresult : (used.schema.evaluate (Assignment.ofText text) used.registry).1 =
      (fresh.parseText text).1 := by
    rw [Schema.evaluate_fst_congr hfresh h.grounded h.meaning?_eq, h.schema_eq]
    rfl
  obtain ⟨processed, hprocessed, hrun⟩ := Schema.evaluateFrom_snd_eq_run used.schema
    hfresh h.grounded h.meaning?_eq .empty (Assignment.ofText text)
  rw [← h.schema_eq]
  exact ⟨processed, hprocessed,
    Prod.ext hresult (congrArg (fun registry => { used with registry }) hrun)⟩

theorem Continues.parseFile (h : fresh.Continues used) (hfresh : fresh.registry.Grounded)
    (host : Host) :
    (used.parseFile host).1 = (fresh.parseFile host).1 ∧
      fresh.Continues (used.parseFile host).2 := by
  unfold Parser.parseFile
  rw [h.path_eq]
  cases host.readEnvFile fresh.path with
  | error error => exact ⟨rfl, h⟩
  | ok text =>
    obtain ⟨processed, _, heq⟩ := h.parseText hfresh text
    dsimp only
    rw [heq]
    exact ⟨rfl, h.lookUp _⟩

theorem Continues.perform (h : fresh.Continues used) (hfresh : fresh.registry.Grounded)
    (call : Call) :
    (used.perform call).1 = (fresh.perform call).1 ∧ fresh.Continues (used.perform call).2 := by
  cases call with
  | parseText text =>
    obtain ⟨processed, _, heq⟩ := h.parseText hfresh text
    have hresult : (used.parseText text).1 = (fresh.parseText text).1 := by rw [heq]
    refine ⟨congrArg Reply.parsed hresult, ?_⟩
    show fresh.Continues (used.parseText text).2
    rw [heq]
    exact h.lookUp _
  | parseFile host =>
    obtain ⟨hresult, hnext⟩ := h.parseFile hfresh host
    exact ⟨congrArg Reply.parsed hresult, hnext⟩
  | populate parsed environment =>
    refine ⟨congrArg Reply.populated ?_, h⟩
    rw [populateWith, populateWith, h.populate_eq, h.delimiter_eq]

theorem Continues.run (h : fresh.Continues used) (hfresh : fresh.registry.Grounded)
    (calls : List Call) : fresh.Continues (used.run calls) := by
  induction calls generalizing used with
  | nil => exact h
  | cons call later ih => exact ih (h.perform hfresh call).2

end Parser

theorem Builder.registry_of_build {builder : Builder} {host : Host} {parser : Parser}
    (h : builder.build host = .ok parser) :
    parser.registry = (Registry.withBuiltins builder.delimiter).registerAll builder.readers := by
  obtain ⟨path, schema, _, _, rfl⟩ := builder.eq_of_build h
  rfl

theorem Builder.continues_of_build {builder : Builder} {host : Host} {fresh : Parser}
    (h : builder.build host = .ok fresh) (hreaders : ∀ reader ∈ builder.readers, reader.Grounded) :
    fresh.Continues fresh := by
  have hbuiltins := Registry.grounded_withBuiltins builder.delimiter
  apply Parser.Continues.refl
  · rw [registry_of_build h]
    exact hbuiltins.registerAll hreaders
  · rw [registry_of_build h]
    exact (Registry.numbered_withBuiltins builder.delimiter).registerAll hbuiltins hreaders

/-- After any calls, a parser replies to every call as on its first day.  A parse adds the unions of
the assigned fields up to the first fatal assignment and changes nothing else, whether it fails or
not; populating changes nothing. -/
theorem Parser.perform_run_of_build {builder : Builder} {host : Host} {fresh : Parser}
    (hbuild : builder.build host = .ok fresh)
    (hreaders : ∀ reader ∈ builder.readers, reader.Grounded) (calls : List Parser.Call) :
    (∀ call, ((fresh.run calls).perform call).1 = (fresh.perform call).1) ∧
    (∀ text, ((fresh.run calls).parseText text).1 = (fresh.parseText text).1 ∧
      ∃ processed after,
        fresh.schema.Processed fresh.registry (Assignment.ofText text) processed ∧
          ((fresh.run calls).parseText text).2 = { fresh.run calls with registry := after } ∧
          (fresh.run calls).registry.GrownBy after (fresh.schema.typeIds processed)) ∧
    ∀ parsed environment,
      ((fresh.run calls).perform (.populate parsed environment)).2 = fresh.run calls := by
  have hstart := builder.continues_of_build hbuild hreaders
  have hused : fresh.Continues (fresh.run calls) := hstart.run hstart.grounded calls
  refine ⟨fun call => (hused.perform hstart.grounded call).1, fun text => ?_, fun _ _ => rfl⟩
  obtain ⟨processed, hprocessed, heq⟩ := hused.parseText hstart.grounded text
  rw [heq]
  exact ⟨rfl, processed, _, hprocessed, rfl,
    Registry.grownBy_run_resolve hused.grounded hused.numbered _⟩

theorem Parser.perform_run_of_build_failed :
    let schema := ((Schema.empty.field "A" (.type "int|boolean")).field "B" (.type "mystery")).field
      "C" (.type "boolean|string")
    let readers : List Reader := [.leaf (.never "no|one"), .union "int|flag"]
    let builder := ((Builder.initial.withFile "/.env").withSchema schema).withReaders readers
    let host : Host := ⟨.empty, .present "/", .empty, none⟩
    (∀ reader ∈ builder.readers, reader.Grounded) ∧
      ∃ fresh, builder.build host = .ok fresh ∧
        let used := fresh.run [.parseText "A=7\nB=7\nC=7"]
        used.registry.contains "int|boolean" = true ∧
          used.registry.contains "boolean|string" = false ∧
          (used.parseText "A=on\nC=7").1 = (fresh.parseText "A=on\nC=7").1 := by
  intro schema readers builder host
  have hreaders : ∀ reader ∈ builder.readers, reader.Grounded := by decide
  refine ⟨hreaders, _, rfl, ?_⟩
  intro used
  have hbuild : builder.build host = .ok _ := rfl
  obtain ⟨_, hparse, _⟩ := perform_run_of_build hbuild hreaders [.parseText "A=7\nB=7\nC=7"]
  exact ⟨by decide, by decide, (hparse "A=on\nC=7").1⟩

end TypedEnv
