import Mathlib.Data.List.Induction
import TypedEnv.Builder
import TypedEnv.Proofs.Meaning

/-!
Configuring a parser.  Calls come in any order and name the options that they decide; settings and
arguments name several at once, some of them only when they have a value.  An option has the value
of the last call that names it, and the parser is put together from the values at the end.
-/

namespace TypedEnv

/-- What a call names as the schema of a builder. -/
inductive SchemaSource where
  | given (schema : Schema)
  | file (path : String)

def SchemaSource.schema? : SchemaSource → Option Schema
  | given schema => some schema
  | file _ => none

def SchemaSource.path? : SchemaSource → Option String
  | given _ => none
  | file path => some path

namespace Builder

inductive Call where
  | file (path : String)
  | location (place : Location)
  | fileName (name : String)
  | delimiter (text : String)
  | populate (allowed : Bool)
  | strict (value : Bool)
  | schema (own : Schema)
  | schemaFile (path : String)
  | reader (own : Reader)
  | readers (several : List Reader)
  | settings (own : Settings)
  | arguments (given : Arguments)

def perform (builder : Builder) : Call → Builder
  | .file path => builder.withFile path
  | .location place => builder.withLocation place
  | .fileName name => builder.withFileName name
  | .delimiter text => builder.withDelimiter text
  | .populate allowed => builder.withPopulate allowed
  | .strict value => builder.withStrict value
  | .schema own => builder.withSchema own
  | .schemaFile path => builder.withSchemaFile path
  | .reader own => builder.withReaders [own]
  | .readers several => builder.withReaders several
  | .settings own => builder.withSettings own
  | .arguments given => builder.withArguments given

def run (builder : Builder) (calls : List Call) : Builder := calls.foldl perform builder

namespace Call

def location? : Call → Option Location
  | .file path => some (.path path)
  | .location place => some place
  | .settings own => own.file.map .path
  | .arguments given => given.file.map .path
  | _ => none

def fileName? : Call → Option String
  | .fileName name => some name
  | _ => none

def delimiter? : Call → Option String
  | .delimiter text => some text
  | .settings own => some own.delimiter
  | .arguments given => given.delimiter
  | _ => none

def populate? : Call → Option Bool
  | .populate allowed => some allowed
  | .settings own => some own.populate
  | .arguments given => if given.noPopulate then some false else none
  | _ => none

def strict? : Call → Option Bool
  | .strict value => some value
  | .settings own => some own.strict
  | _ => none

def source? : Call → Option SchemaSource
  | .schema own => some (.given own)
  | .schemaFile path => some (.file path)
  | .settings own => own.schema.map .file
  | .arguments given => given.schema.map .file
  | _ => none

def added : Call → List Reader
  | .reader own => [own]
  | .readers several => several
  | _ => []

end Call

def source? (builder : Builder) : Option SchemaSource :=
  (builder.schemaPath.map .file).or (builder.schema.map .given)

def Single (builder : Builder) : Prop := builder.schema = none ∨ builder.schemaPath = none

/-- A call decides the options that it names and leaves the others as they are.  One that names a
source decides both the schema and the path. -/
structure Performs (builder : Builder) (call : Call) (after : Builder) : Prop where
  location : after.location = call.location?.getD builder.location
  fileName : after.fileName = call.fileName?.or builder.fileName
  delimiter : after.delimiter = call.delimiter?.getD builder.delimiter
  populate : after.populate = call.populate?.getD builder.populate
  strict : after.strict = call.strict?.getD builder.strict
  schema : after.schema = (call.source?.map SchemaSource.schema?).getD builder.schema
  schemaPath : after.schemaPath = (call.source?.map SchemaSource.path?).getD builder.schemaPath
  readers : after.readers = builder.readers ++ call.added

theorem performs_settings (builder : Builder) (settings : Settings) :
    builder.Performs (.settings settings) (builder.withSettings settings) := by
  obtain ⟨populate, delimiter, file, schema, strict⟩ := settings
  have hreaders : builder.readers = builder.readers ++ [] := (List.append_nil _).symm
  cases file <;> cases schema <;> exact ⟨rfl, rfl, rfl, rfl, rfl, rfl, rfl, hreaders⟩

theorem performs_arguments (builder : Builder) (arguments : Arguments) :
    builder.Performs (.arguments arguments) (builder.withArguments arguments) := by
  obtain ⟨file, schema, delimiter, noPopulate⟩ := arguments
  have hreaders : builder.readers = builder.readers ++ [] := (List.append_nil _).symm
  cases noPopulate <;> cases file <;> cases schema <;> cases delimiter <;>
    exact ⟨rfl, rfl, rfl, rfl, rfl, rfl, rfl, hreaders⟩

theorem performs_perform (builder : Builder) (call : Call) :
    builder.Performs call (builder.perform call) := by
  have hreaders : builder.readers = builder.readers ++ [] := (List.append_nil _).symm
  cases call with
  | settings settings => exact performs_settings builder settings
  | arguments arguments => exact performs_arguments builder arguments
  | reader reader => exact ⟨rfl, rfl, rfl, rfl, rfl, rfl, rfl, rfl⟩
  | readers readers => exact ⟨rfl, rfl, rfl, rfl, rfl, rfl, rfl, rfl⟩
  | _ => exact ⟨rfl, rfl, rfl, rfl, rfl, rfl, rfl, hreaders⟩

/-- The value of an option after some calls: the last call that names the option decides it, and
without such a call it is what it was. -/
inductive LastNamed {α : Type} (named? : Call → Option α) (start : α) (calls : List Call) :
    α → Prop
  | kept : (∀ call ∈ calls, named? call = none) → LastNamed named? start calls start
  | decided (before : List Call) (call : Call) (after : List Call) {value : α} :
      calls = before ++ call :: after → named? call = some value →
      (∀ later ∈ after, named? later = none) → LastNamed named? start calls value

theorem lastNamed_run {α : Type} {option : Builder → α} {named? : Call → Option α}
    (hstep : ∀ builder call, option (builder.perform call) = (named? call).getD (option builder))
    (start : Builder) (calls : List Call) :
    LastNamed named? (option start) calls (option (start.run calls)) := by
  induction calls using List.reverseRecOn with
  | nil => exact .kept (List.forall_mem_nil _)
  | append_singleton calls call ih =>
    have hlast : start.run (calls ++ [call]) = (start.run calls).perform call := by
      rw [run, List.foldl_append]
      rfl
    rw [hlast, hstep]
    cases hnamed : named? call with
    | some value => exact .decided calls call [] rfl hnamed (List.forall_mem_nil _)
    | none =>
      have hadded : ∀ later ∈ [call], named? later = none := by
        intro later hlater
        rw [List.mem_singleton.1 hlater, hnamed]
      rw [Option.getD_none]
      generalize option (start.run calls) = value at ih
      cases ih with
      | kept hkept => exact .kept (List.forall_mem_append.2 ⟨hkept, hadded⟩)
      | decided before decider after hcalls hvalue hafter =>
        refine .decided before decider (after ++ [call]) ?_ hvalue
          (List.forall_mem_append.2 ⟨hafter, hadded⟩)
        rw [hcalls, List.append_assoc, List.cons_append]

variable {builder after : Builder} {call : Call}

theorem Performs.source? (h : builder.Performs call after) :
    after.source? = (call.source?.map some).getD builder.source? := by
  rw [Builder.source?, h.schema, h.schemaPath]
  cases call.source? with
  | none => rfl
  | some source =>
    cases source with
    | given schema => rfl
    | file path => rfl

/-- A source that is named takes the place of the one before, whichever of the two it was. -/
theorem Performs.single (h : builder.Performs call after) (hsingle : builder.Single) :
    after.Single := by
  rw [Single, h.schema, h.schemaPath]
  cases call.source? with
  | none => exact hsingle
  | some source =>
    cases source with
    | given schema => exact Or.inr rfl
    | file path => exact Or.inl rfl

theorem single_initial : initial.Single := Or.inl rfl

theorem Single.run (h : builder.Single) (calls : List Call) : (builder.run calls).Single := by
  induction calls generalizing builder with
  | nil => exact h
  | cons call calls ih => exact ih ((performs_perform builder call).single h)

theorem readers_run (start : Builder) (calls : List Call) :
    (start.run calls).readers = start.readers ++ calls.flatMap Call.added := by
  induction calls generalizing start with
  | nil => exact (List.append_nil _).symm
  | cons call calls ih =>
    have hfirst : start.run (call :: calls) = (start.perform call).run calls := rfl
    rw [hfirst, ih, (performs_perform start call).readers, List.append_assoc, List.flatMap_cons]

structure Configured (start : Builder) (calls : List Call) (builder : Builder) : Prop where
  location : LastNamed Call.location? start.location calls builder.location
  fileName : LastNamed (fun call => call.fileName?.map some) start.fileName calls builder.fileName
  delimiter : LastNamed Call.delimiter? start.delimiter calls builder.delimiter
  populate : LastNamed Call.populate? start.populate calls builder.populate
  strict : LastNamed Call.strict? start.strict calls builder.strict
  source : LastNamed (fun call => call.source?.map some) start.source? calls builder.source?
  schema : LastNamed (fun call => call.source?.map SchemaSource.schema?) start.schema calls
    builder.schema
  schemaPath : LastNamed (fun call => call.source?.map SchemaSource.path?) start.schemaPath calls
    builder.schemaPath
  readers : builder.readers = start.readers ++ calls.flatMap Call.added

theorem configured_run (start : Builder) (calls : List Call) :
    Configured start calls (start.run calls) where
  location := lastNamed_run (fun builder call => (performs_perform builder call).location) _ _
  fileName := by
    refine lastNamed_run (fun builder call => ?_) start calls
    rw [(performs_perform builder call).fileName]
    cases call.fileName? <;> rfl
  delimiter := lastNamed_run (fun builder call => (performs_perform builder call).delimiter) _ _
  populate := lastNamed_run (fun builder call => (performs_perform builder call).populate) _ _
  strict := lastNamed_run (fun builder call => (performs_perform builder call).strict) _ _
  source := lastNamed_run (fun builder call => (performs_perform builder call).source?) _ _
  schema := lastNamed_run (fun builder call => (performs_perform builder call).schema) _ _
  schemaPath := lastNamed_run (fun builder call => (performs_perform builder call).schemaPath) _ _
  readers := readers_run start calls

end Builder

/-- The schema of a builder.  A file is read as strictly as the options say when the parser is
built. -/
inductive Builder.GivesSchema (builder : Builder) (host : Host) : Schema → Prop
  | none : builder.source? = none → GivesSchema builder host .empty
  | given {schema : Schema} : builder.source? = some (.given schema) →
      GivesSchema builder host schema
  | file {path : String} {schema : Schema} : builder.source? = some (.file path) →
      Schema.load host path builder.strict = .ok schema → GivesSchema builder host schema

structure Builder.Assembles (builder : Builder) (host : Host) (parser : Parser) : Prop where
  path : builder.location.resolve (builder.fileName.getD defaultFileName) host = some parser.path
  schema : builder.GivesSchema host parser.schema
  delimiter : parser.delimiter = builder.delimiter
  populate : parser.populate = builder.populate
  registry : parser.registry =
    .registerAll .empty ((Leaf.builtins builder.delimiter).map .leaf ++ builder.readers)

namespace Builder

variable {builder : Builder} {host : Host} {parser : Parser}

theorem loadSchema_eq (builder : Builder) (host : Host) :
    builder.loadSchema host = match builder.source? with
      | none => .ok .empty
      | some (.given schema) => .ok schema
      | some (.file path) => Schema.load host path builder.strict := by
  rw [loadSchema, source?]
  cases builder.schemaPath with
  | some path => rfl
  | none => cases builder.schema <;> rfl

theorem loadSchema_eq_ok_iff {schema : Schema} :
    builder.loadSchema host = .ok schema ↔ builder.GivesSchema host schema := by
  rw [loadSchema_eq]
  constructor
  · intro h
    split at h
    · next hsource =>
      cases h
      exact .none hsource
    · next hsource =>
      cases h
      exact .given hsource
    · next hsource => exact .file hsource h
  · intro h
    cases h with
    | none hsource => rw [hsource]
    | given hsource => rw [hsource]
    | file hsource hload =>
      rw [hsource]
      exact hload

theorem build_eq_ok_iff : builder.build host = .ok parser ↔ builder.Assembles host parser := by
  have hregistry : (Registry.withBuiltins builder.delimiter).registerAll builder.readers =
      .registerAll .empty ((Leaf.builtins builder.delimiter).map .leaf ++ builder.readers) :=
    List.foldl_append.symm
  constructor
  · intro h
    obtain ⟨path, schema, hpath, hschema, rfl⟩ := eq_of_build h
    exact ⟨hpath, loadSchema_eq_ok_iff.1 hschema, rfl, rfl, hregistry⟩
  · rintro ⟨hpath, hschema, hdelimiter, hpopulate, hown⟩
    rw [build, path?, hpath, loadSchema_eq_ok_iff.2 hschema, hregistry, ← hown, ← hdelimiter,
      ← hpopulate]
    rfl

end Builder

namespace Registry

def LastWithId (readers : List Reader) (id : String) (reader : Reader) : Prop :=
  ∃ before after, readers = before ++ reader :: after ∧ reader.id = id ∧
    ∀ later ∈ after, later.id ≠ id

theorem find?_reverse_eq_some_iff {readers : List Reader} {id : String} {reader : Reader} :
    readers.reverse.find? (·.id == id) = some reader ↔ LastWithId readers id reader := by
  rw [List.find?_eq_some_iff_append]
  constructor
  · rintro ⟨hid, after, before, hsplit, hafter⟩
    refine ⟨before.reverse, after.reverse, ?_, beq_iff_eq.1 hid, fun later hl => ?_⟩
    · rw [← List.reverse_reverse readers, hsplit]
      simp
    · simpa using hafter later (List.mem_reverse.1 hl)
  · rintro ⟨before, after, rfl, hid, hafter⟩
    refine ⟨beq_iff_eq.2 hid, after.reverse, before.reverse, by simp, fun later hl => ?_⟩
    simpa using hafter later (List.mem_reverse.1 hl)

theorem map_reader_eq_some_iff {readers : List Reader} {id : String} {reader : Reader} :
    ((empty.registerAll readers).shelf.get? id).map Entry.reader = some reader ↔
      LastWithId readers id reader := by
  rw [map_reader_registerAll, ← find?_reverse_eq_some_iff]
  exact iff_of_eq (congrArg (· = some reader) Option.or_none)

end Registry

/-- The options of a builder are those of the last calls that name them, whatever the order of the
calls; the next call changes what it names, at no point are a schema and a path both set, and a
parser that is built has all of the values. -/
theorem Builder.run_assembles (start : Builder) (calls : List Builder.Call) :
    Configured start calls (start.run calls) ∧
    (∀ call, (start.run calls).Performs call ((start.run calls).perform call)) ∧
    Builder.initial.Single ∧ (start.Single → ∀ done, done <+: calls → (start.run done).Single) ∧
    ∀ host parser, (start.run calls).build host = .ok parser ↔
      (start.run calls).Assembles host parser ∧
        ∀ id reader, (parser.registry.shelf.get? id).map Entry.reader = some reader ↔
          Registry.LastWithId ((Leaf.builtins parser.delimiter).map .leaf ++
            (start.readers ++ calls.flatMap Call.added)) id reader := by
  have hconfigured := configured_run start calls
  refine ⟨hconfigured, performs_perform _, single_initial, fun h done _ => h.run done,
    fun host parser => ?_⟩
  rw [build_eq_ok_iff]
  refine ⟨fun h => ⟨h, fun id reader => ?_⟩, And.left⟩
  rw [h.registry, Registry.map_reader_eq_some_iff, h.delimiter, hconfigured.readers]

example (host : Host) :
    (Builder.initial.run [.schemaFile "schema.toml", .strict false]).loadSchema host =
      Schema.load host "schema.toml" false := rfl

end TypedEnv
