import TypedEnv.Arguments
import TypedEnv.Evaluation
import TypedEnv.Location
import TypedEnv.Populate
import TypedEnv.Settings

/-!
Parsers of env files, and building one option by option; the last call that names an option decides
it.  A parser has everything fixed but the registry, which may grow by the unions that its schema
names; parsing returns the parser with the registry after it.
-/

namespace TypedEnv

structure Parser where
  path : String
  schema : Schema
  registry : Registry
  delimiter : String
  populate : Bool

namespace Parser

def parseText (parser : Parser) (text : String) : Except Error Parsed × Parser :=
  match parser.schema.evaluate (Assignment.ofText text) parser.registry with
  | (result, registry) => (result, { parser with registry })

def parseFile (parser : Parser) (host : Host) : Except Error Parsed × Parser :=
  match host.readEnvFile parser.path with
  | .error error => (.error error, parser)
  | .ok text => parser.parseText text

def populateWith (parser : Parser) (parsed : Parsed) (environment : Environment) :
    Except Error PopulateEnd :=
  if parser.populate then .ok (parsed.populate parser.delimiter environment)
  else .error .populateDisabled

theorem parseText_fst (parser : Parser) (text : String) :
    (parser.parseText text).1 =
      (parser.schema.evaluate (Assignment.ofText text) parser.registry).1 := rfl

end Parser

structure Builder where
  location : Location
  fileName : Option String
  delimiter : String
  populate : Bool
  schema : Option Schema
  schemaPath : Option String
  strict : Bool
  readers : List Reader

namespace Builder

def initial : Builder :=
  ⟨.workingDirectory, none, defaultDelimiter, true, none, none, true, []⟩

def withLocation (builder : Builder) (location : Location) : Builder := { builder with location }

def withFile (builder : Builder) (path : String) : Builder := builder.withLocation (.path path)

def withFileName (builder : Builder) (name : String) : Builder :=
  { builder with fileName := some name }

def withDelimiter (builder : Builder) (delimiter : String) : Builder := { builder with delimiter }

def withPopulate (builder : Builder) (populate : Bool) : Builder := { builder with populate }

def withStrict (builder : Builder) (strict : Bool) : Builder := { builder with strict }

def withSchema (builder : Builder) (schema : Schema) : Builder :=
  { builder with schema := some schema, schemaPath := none }

def withSchemaFile (builder : Builder) (path : String) : Builder :=
  { builder with schemaPath := some path, schema := none }

def withReaders (builder : Builder) (readers : List Reader) : Builder :=
  { builder with readers := builder.readers ++ readers }

def withOptional {α : Type} (apply : Builder → α → Builder) (value : Option α)
    (builder : Builder) : Builder :=
  match value with
  | some value => apply builder value
  | none => builder

def withSettings (builder : Builder) (settings : Settings) : Builder :=
  withOptional withSchemaFile settings.schema
    (withOptional withFile settings.file
      (((builder.withPopulate settings.populate).withDelimiter settings.delimiter).withStrict
        settings.strict))

def withArguments (builder : Builder) (arguments : Arguments) : Builder :=
  let builder := withOptional withDelimiter arguments.delimiter
    (withOptional withSchemaFile arguments.schema
      (withOptional withFile arguments.file builder))
  if arguments.noPopulate then builder.withPopulate false else builder

/-- A path goes before a schema of the program, and without either of them nothing is asked for. -/
def loadSchema (builder : Builder) (host : Host) : Except Error Schema :=
  match builder.schemaPath with
  | some path => Schema.load host path builder.strict
  | none => .ok (builder.schema.getD .empty)

def path? (builder : Builder) (host : Host) : Option String :=
  builder.location.resolve (builder.fileName.getD defaultFileName) host

/-- The parser of the options.  The path of the env file is settled before the schema is read. -/
def build (builder : Builder) (host : Host) : Except Error Parser :=
  match builder.path? host with
  | none => .error .noLocation
  | some path => do
    let schema ← builder.loadSchema host
    return {
      path, schema
      registry := (Registry.withBuiltins builder.delimiter).registerAll builder.readers
      delimiter := builder.delimiter
      populate := builder.populate }

theorem eq_of_build {builder : Builder} {host : Host} {parser : Parser}
    (h : builder.build host = .ok parser) :
    ∃ path schema, builder.path? host = some path ∧ builder.loadSchema host = .ok schema ∧
      parser = {
        path, schema
        registry := (Registry.withBuiltins builder.delimiter).registerAll builder.readers
        delimiter := builder.delimiter
        populate := builder.populate } := by
  unfold build at h
  split at h
  · cases h
  · next path hpath =>
    cases hs : builder.loadSchema host with
    | error error =>
      rw [hs] at h
      cases h
    | ok schema =>
      rw [hs] at h
      cases h
      exact ⟨path, schema, hpath, rfl, rfl⟩

end Builder

/-- The result of a load: the values, a failure, or a run that broke off when the process refused a
variable. -/
inductive LoadResult where
  | loaded (parsed : Parsed)
  | failed (error : Error)
  | refused

/-- Builds a parser, parses its file and populates the process environment if the parser may;
returns the variables of the process afterwards. -/
def Builder.load (builder : Builder) (host : Host) : LoadResult × Dict String :=
  match builder.build host with
  | .error error => (.failed error, host.environment)
  | .ok parser =>
    match parser.parseFile host with
    | (.error error, _) => (.failed error, host.environment)
    | (.ok parsed, _) =>
      if parser.populate then
        match parsed.populate parser.delimiter ⟨.process, host.environment⟩ with
        | .complete environment _ => (.loaded parsed, environment.values)
        | .refused environment => (.refused, environment.values)
      else (.loaded parsed, host.environment)

end TypedEnv
