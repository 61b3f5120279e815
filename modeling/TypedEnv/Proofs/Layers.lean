import TypedEnv.Error
import TypedEnv.Settings

/-!
How settings come together.  Each setting has its variable's value, or else the file's, or else its
default, whatever the other settings have.  A variable or a setting of the file with a value of
another type fails the whole reading, and what the file has under other names does not count.
-/

namespace TypedEnv

/-- How the values of a type are written: the texts of variables, some of which count as no value,
and the values of files. -/
structure SettingKind (α : Type) where
  unset : String → Bool
  ofText? : String → Option α
  ofValue? : Toml.Value → Option α

namespace SettingKind

def truth : SettingKind Bool where
  unset := (· == "")
  ofText? raw := SettingsLayer.truth? (Text.trim raw.toList)
  ofValue? := SettingsLayer.bool?

def text : SettingKind String := ⟨fun _ => false, some, SettingsLayer.text?⟩

end SettingKind

structure SettingSource (α : Type) where
  kind : SettingKind α
  variableName : String
  name : String

namespace SettingSource

def populate : SettingSource Bool := ⟨.truth, "ENVFIG_POPULATE", "populate"⟩

def delimiter : SettingSource String := ⟨.text, "ENVFIG_DELIMITER", "delimiter"⟩

def file : SettingSource String := ⟨.text, "ENVFIG_FILE", "file"⟩

def schema : SettingSource String := ⟨.text, "ENVFIG_SCHEMA", "schema"⟩

def strict : SettingSource Bool := ⟨.truth, "ENVFIG_STRICT", "strict"⟩

def All (P : (α : Type) → SettingSource α → Prop) : Prop :=
  P _ populate ∧ P _ delimiter ∧ P _ file ∧ P _ schema ∧ P _ strict

variable {α : Type} (source : SettingSource α)

def given? (environment : Dict String) : Option String :=
  (environment.get? source.variableName).filter (!source.kind.unset ·)

def Unset (environment : Dict String) : Prop := environment.get? source.variableName = none

def written? (members : List (String × Toml.Value)) : Option Toml.Value :=
  valueOf? source.name members

def GivenFits (environment : Dict String) : Prop :=
  ∀ raw, source.given? environment = some raw → (source.kind.ofText? raw).isSome = true

def WrittenFits (members : List (String × Toml.Value)) : Prop :=
  ∀ value, source.written? members = some value → (source.kind.ofValue? value).isSome = true

def value? (environment : Dict String) (members : List (String × Toml.Value)) : Option α :=
  match source.given? environment with
  | some raw => source.kind.ofText? raw
  | none => (source.written? members).bind source.kind.ofValue?

end SettingSource

namespace Settings

/-- Each setting on its own, from variables over the members of a file over defaults. -/
def layered (environment : Dict String) (members : List (String × Toml.Value)) : Settings where
  populate := (SettingSource.populate.value? environment members).getD true
  delimiter := (SettingSource.delimiter.value? environment members).getD ", "
  file := SettingSource.file.value? environment members
  schema := SettingSource.schema.value? environment members
  strict := (SettingSource.strict.value? environment members).getD true

/-- The members that a path leads to: there are none without a path or without a file. -/
inductive Finds (host : Host) : Option String → List (String × Toml.Value) → Prop
  | nowhere : Finds host none []
  | missing {path : String} (hextension : Path.extension? path = some "toml")
      (hread : host.readText path = .error .missing) : Finds host (some path) []
  | written {path text : String} {members : List (String × Toml.Value)}
      (hextension : Path.extension? path = some "toml") (hread : host.readText path = .ok text)
      (hparse : Toml.parse .revised text.toList = some members) : Finds host (some path) members

end Settings

namespace SettingSource

variable {α : Type} {environment : Dict String} {members : List (String × Toml.Value)}

def givenValue? (source : SettingSource α) (environment : Dict String) : Option α :=
  (source.given? environment).bind source.kind.ofText?

def writtenValue? (source : SettingSource α) (members : List (String × Toml.Value)) : Option α :=
  (source.written? members).bind source.kind.ofValue?

theorem givenValue?_text (name own : String) (environment : Dict String) :
    givenValue? ⟨.text, name, own⟩ environment = environment.get? name := by
  simp only [givenValue?, given?, SettingKind.text]
  cases environment.get? name <;> rfl

theorem givenFits_text (name own : String) (environment : Dict String) :
    GivenFits ⟨.text, name, own⟩ environment := fun _ _ => rfl

theorem truthOf_eq_ok_iff {name own : String} {value : Option Bool} :
    SettingsLayer.truthOf environment name own = .ok value ↔
      GivenFits ⟨.truth, name, own⟩ environment ∧
        givenValue? ⟨.truth, name, own⟩ environment = value := by
  simp only [GivenFits, givenValue?, given?, SettingKind.truth, SettingsLayer.truthOf]
  cases environment.get? name with
  | none => simp
  | some raw =>
    by_cases hempty : raw = ""
    · simp [hempty, Option.filter_some]
    · cases htruth : SettingsLayer.truth? (Text.trim raw.toList) <;>
        simp [hempty, htruth, Option.filter_some]

theorem member?_eq_some_iff (source : SettingSource α) {value : Option α} :
    SettingsLayer.member? source.kind.ofValue? source.name members = some value ↔
      source.WrittenFits members ∧ source.writtenValue? members = value := by
  simp only [WrittenFits, writtenValue?, written?, SettingsLayer.member?]
  cases valueOf? source.name members with
  | none => simp
  | some written => cases hvalue : source.kind.ofValue? written <;> simp [hvalue]

theorem or_eq_value? {source : SettingSource α} (h : source.GivenFits environment) :
    (source.givenValue? environment).or (source.writtenValue? members) =
      source.value? environment members := by
  rw [value?, givenValue?, writtenValue?]
  cases hgiven : source.given? environment with
  | none => rfl
  | some raw =>
    obtain ⟨value, hvalue⟩ := Option.isSome_iff_exists.1 (h raw hgiven)
    simp [hvalue]

end SettingSource

namespace SettingsLayer

variable {environment : Dict String} {members : List (String × Toml.Value)} {layer : SettingsLayer}

def each (value? : (α : Type) → SettingSource α → Option α) : SettingsLayer where
  populate := value? _ .populate
  delimiter := value? _ .delimiter
  file := value? _ .file
  schema := value? _ .schema
  strict := value? _ .strict

theorem ofVariables_eq_ok_iff :
    ofVariables environment = .ok layer ↔
      SettingSource.All (fun _ source => source.GivenFits environment) ∧
        each (fun _ source => source.givenValue? environment) = layer := by
  have heach : each (fun _ source => source.givenValue? environment) =
      ⟨SettingSource.populate.givenValue? environment, environment.get? "ENVFIG_DELIMITER",
        environment.get? "ENVFIG_FILE", environment.get? "ENVFIG_SCHEMA",
        SettingSource.strict.givenValue? environment⟩ := by
    simp only [each, SettingSource.delimiter, SettingSource.file, SettingSource.schema,
      SettingSource.givenValue?_text]
  rw [heach]
  constructor
  · intro h
    obtain ⟨populate, hpopulate, h⟩ := exists_of_bind_eq_ok h
    obtain ⟨strict, hstrict, h⟩ := exists_of_bind_eq_ok h
    obtain ⟨hpfits, rfl⟩ := SettingSource.truthOf_eq_ok_iff.1 hpopulate
    obtain ⟨hsfits, rfl⟩ := SettingSource.truthOf_eq_ok_iff.1 hstrict
    cases h
    exact ⟨⟨hpfits, SettingSource.givenFits_text _ _ _, SettingSource.givenFits_text _ _ _,
      SettingSource.givenFits_text _ _ _, hsfits⟩, rfl⟩
  · rintro ⟨⟨hpfits, -, -, -, hsfits⟩, rfl⟩
    have hpopulate := SettingSource.truthOf_eq_ok_iff.2 ⟨hpfits, rfl⟩
    have hstrict := SettingSource.truthOf_eq_ok_iff.2 ⟨hsfits, rfl⟩
    rw [ofVariables, hpopulate, hstrict]
    rfl

theorem ofTable_eq_some_iff :
    ofTable members = some layer ↔
      SettingSource.All (fun _ source => source.WrittenFits members) ∧
        each (fun _ source => source.writtenValue? members) = layer := by
  have hpopulate := @SettingSource.member?_eq_some_iff _ members .populate
  have hdelimiter := @SettingSource.member?_eq_some_iff _ members .delimiter
  have hfile := @SettingSource.member?_eq_some_iff _ members .file
  have hschema := @SettingSource.member?_eq_some_iff _ members .schema
  have hstrict := @SettingSource.member?_eq_some_iff _ members .strict
  constructor
  · intro h
    simp only [ofTable, Option.bind_eq_bind, Option.bind_eq_some_iff] at h
    obtain ⟨populate, hp, delimiter, hd, file, hf, schema, hs, strict, ht, h⟩ := h
    obtain ⟨hpfits, rfl⟩ := hpopulate.1 hp
    obtain ⟨hdfits, rfl⟩ := hdelimiter.1 hd
    obtain ⟨hffits, rfl⟩ := hfile.1 hf
    obtain ⟨hsfits, rfl⟩ := hschema.1 hs
    obtain ⟨htfits, rfl⟩ := hstrict.1 ht
    exact ⟨⟨hpfits, hdfits, hffits, hsfits, htfits⟩, Option.some.inj h⟩
  · rintro ⟨⟨hpfits, hdfits, hffits, hsfits, htfits⟩, rfl⟩
    have hp := hpopulate.2 ⟨hpfits, rfl⟩
    have hd := hdelimiter.2 ⟨hdfits, rfl⟩
    have hf := hfile.2 ⟨hffits, rfl⟩
    have hs := hschema.2 ⟨hsfits, rfl⟩
    have ht := hstrict.2 ⟨htfits, rfl⟩
    simp only [ofTable, Option.bind_eq_bind, Option.bind_eq_some_iff]
    exact ⟨_, hp, _, hd, _, hf, _, hs, _, ht, rfl⟩

theorem ofTable_congr {others : List (String × Toml.Value)}
    (h : SettingSource.All fun _ source => source.written? others = source.written? members) :
    ofTable others = ofTable members := by
  obtain ⟨hpopulate, hdelimiter, hfile, hschema, hstrict⟩ := h
  simp only [SettingSource.written?, SettingSource.populate, SettingSource.delimiter,
    SettingSource.file, SettingSource.schema,
    SettingSource.strict] at hpopulate hdelimiter hfile hschema hstrict
  simp only [ofTable, member?, hpopulate, hdelimiter, hfile, hschema, hstrict]

theorem finish_orElse_each
    (h : SettingSource.All fun _ source => source.GivenFits environment) :
    ((each fun _ source => source.givenValue? environment).orElse
      (each fun _ source => source.writtenValue? members)).finish =
      Settings.layered environment members := by
  obtain ⟨hpopulate, hdelimiter, hfile, hschema, hstrict⟩ := h
  simp only [orElse, each, finish, SettingSource.or_eq_value?, hpopulate, hdelimiter, hfile,
    hschema, hstrict]
  rfl

theorem ofFile_of_finds {host : Host} {path : String}
    (h : Settings.Finds host (some path) members) :
    ofFile host path = match ofTable members with
      | some layer => .ok layer
      | none => .error (.malformed path) := by
  cases h with
  | missing hextension hread =>
    simp only [ofFile, hextension, hread]
    rfl
  | written hextension hread hparse =>
    simp only [ofFile, hextension, hread, hparse]
    rfl

end SettingsLayer

namespace Settings

variable {host : Host} {path : Option String} {members : List (String × Toml.Value)}

/-- What a reading owes to the variables and to the members that its path leads to. -/
structure Layers (host : Host) (path : Option String) (members : List (String × Toml.Value)) :
    Prop where
  succeeds : (load host path).isOk = true ↔
    SettingSource.All (fun _ source => source.GivenFits host.environment) ∧
      SettingSource.All (fun _ source => source.WrittenFits members)
  settles : ∀ settings, load host path = .ok settings →
    settings = layered host.environment members
  /-- What the file has under other names changes nothing. -/
  known_only : ∀ other others, Host.environment other = host.environment →
    Finds other path others →
    SettingSource.All (fun _ source => source.written? others = source.written? members) →
    load other path = load host path

def outcome (environment : Dict String) (path : Option String)
    (members : List (String × Toml.Value)) : Except Error Settings :=
  match SettingsLayer.ofVariables environment, SettingsLayer.ofTable members with
  | .error fault, _ => .error (.settings fault)
  | .ok upper, some lower => .ok (upper.orElse lower).finish
  | .ok _, none => .error (.settings (.malformed (path.getD "")))

theorem load_of_finds (h : Finds host path members) :
    load host path = outcome host.environment path members := by
  cases path with
  | none =>
    cases h
    rw [load, outcome]
    cases SettingsLayer.ofVariables host.environment <;> rfl
  | some path =>
    rw [load, outcome]
    dsimp only
    rw [SettingsLayer.ofFile_of_finds h]
    cases SettingsLayer.ofVariables host.environment <;>
      cases SettingsLayer.ofTable members <;> rfl

theorem isOk_outcome (environment : Dict String) (path : Option String)
    (members : List (String × Toml.Value)) :
    (outcome environment path members).isOk = true ↔
      SettingSource.All (fun _ source => source.GivenFits environment) ∧
        SettingSource.All (fun _ source => source.WrittenFits members) := by
  have hgiven := @SettingsLayer.ofVariables_eq_ok_iff environment
  have hwritten := @SettingsLayer.ofTable_eq_some_iff members
  rw [outcome]
  cases hupper : SettingsLayer.ofVariables environment with
  | error fault =>
    refine ⟨nofun, fun h => ?_⟩
    rw [hgiven.2 ⟨h.1, rfl⟩] at hupper
    cases hupper
  | ok upper =>
    cases hlower : SettingsLayer.ofTable members with
    | none =>
      refine ⟨nofun, fun h => ?_⟩
      rw [hwritten.2 ⟨h.2, rfl⟩] at hlower
      cases hlower
    | some lower => exact ⟨fun _ => ⟨(hgiven.1 hupper).1, (hwritten.1 hlower).1⟩, fun _ => rfl⟩

theorem eq_layered_of_outcome {environment : Dict String} {settings : Settings}
    (h : outcome environment path members = .ok settings) :
    settings = layered environment members := by
  rw [outcome] at h
  split at h
  · cases h
  · next hupper hlower =>
    obtain ⟨hfits, rfl⟩ := SettingsLayer.ofVariables_eq_ok_iff.1 hupper
    obtain ⟨-, rfl⟩ := SettingsLayer.ofTable_eq_some_iff.1 hlower
    cases h
    exact SettingsLayer.finish_orElse_each hfits
  · cases h

/-- Variables are read first, so a bad one settles the outcome. -/
theorem load_of_not_givenFits (path : Option String)
    (h : ¬ SettingSource.All fun _ source => source.GivenFits host.environment) :
    (load host path).isOk = false ∧ load host path = load host none := by
  cases hupper : SettingsLayer.ofVariables host.environment with
  | ok upper => exact absurd (SettingsLayer.ofVariables_eq_ok_iff.1 hupper).1 h
  | error fault =>
    have hload (path : Option String) : load host path = .error (.settings fault) := by
      rw [load, hupper]
      rfl
    rw [hload, hload]
    exact ⟨rfl, rfl⟩

theorem ofFile_eq_load (host : Host) (path : String) {environment : Dict String}
    (h : SettingSource.All fun _ source => source.Unset environment) :
    ofFile host path = load { host with environment } (some path) := by
  obtain ⟨hpopulate, hdelimiter, hfile, hschema, hstrict⟩ := h
  have hupper : SettingsLayer.ofVariables environment = .ok .empty := by
    simp only [SettingSource.Unset, SettingSource.populate, SettingSource.delimiter,
      SettingSource.file, SettingSource.schema,
      SettingSource.strict] at hpopulate hdelimiter hfile hschema hstrict
    simp only [SettingsLayer.ofVariables, SettingsLayer.truthOf, hpopulate, hdelimiter, hfile,
      hschema, hstrict]
    rfl
  have hlower : SettingsLayer.ofFile { host with environment } path =
      SettingsLayer.ofFile host path := rfl
  rw [load, ofFile, hupper]
  dsimp only [bind, Except.bind]
  rw [hlower]
  cases SettingsLayer.ofFile host path with
  | error fault => rfl
  | ok lower =>
    dsimp only [Except.map, pure, Except.pure]
    rw [SettingsLayer.empty_orElse]

/-- The settings of the surroundings are layered one by one; a variable without a value of its type
fails every reading in the same way, and reading a file alone is reading it with no variable set. -/
theorem load_layers :
    (∀ host path members, Finds host path members → Layers host path members) ∧
    (∀ host path, ¬ SettingSource.All (fun _ source => source.GivenFits host.environment) →
      (load host path).isOk = false ∧ load host path = load host none) ∧
    ∀ (host : Host) path (environment : Dict String),
      SettingSource.All (fun _ source => source.Unset environment) →
      ofFile host path = load { host with environment } (some path) := by
  refine ⟨fun host path members h => ?_, fun host path => load_of_not_givenFits path,
    fun host path environment => ofFile_eq_load host path⟩
  have hload := load_of_finds h
  constructor
  case succeeds =>
    rw [hload]
    exact isOk_outcome _ _ _
  case settles =>
    intro settings hok
    exact eq_layered_of_outcome (hload.symm.trans hok)
  case known_only =>
    intro other others henvironment hfinds hsame
    rw [hload, load_of_finds hfinds, henvironment, outcome, outcome,
      SettingsLayer.ofTable_congr hsame]

theorem load_layers_emptied :
    let text := "populate = false\ndelimiter = \":\"\nextra = [1]\nfile = \"f\"\n"
    let host : Host := ⟨Volume.empty.put ["s.toml"] (.file text.toUTF8.toList), .present "/",
      .ofList [("ENVFIG_DELIMITER", ""), ("ENVFIG_POPULATE", ""), ("ENVFIG_STRICT", " No\t")], none⟩
    let other : Host := { host with environment := .ofList [("ENVFIG_STRICT", "sometimes")] }
    (∃ members, Finds host (some "s.toml") members ∧
      layered host.environment members = ⟨false, "", some "f", none, false⟩) ∧
    ¬ SettingSource.All (fun _ source => source.GivenFits other.environment) ∧
    load other (some "s.toml") = load other none ∧
    SettingSource.All (fun _ source => source.Unset .empty) ∧
    ofFile host "s.toml" = load { host with environment := .empty } (some "s.toml") := by
  intro text host other
  have hread : host.readText "s.toml" = .ok text := eq_ok_of_toOption (by decide +kernel)
  have hparse : (Toml.parse .revised text.toList).isSome = true := by decide +kernel
  obtain ⟨members, hmembers⟩ := Option.isSome_iff_exists.1 hparse
  have hfinds : Finds host (some "s.toml") members := .written (by decide +kernel) hread hmembers
  have hload : load host (some "s.toml") = .ok ⟨false, "", some "f", none, false⟩ :=
    eq_ok_of_toOption (by decide +kernel)
  have hbad : ¬ SettingSource.All fun _ source => source.GivenFits other.environment := by
    rintro ⟨-, -, -, -, hstrict⟩
    have hsometimes := hstrict "sometimes" (by decide)
    exact absurd hsometimes (by decide)
  obtain ⟨hlayers, hfails, hfile⟩ := load_layers
  exact ⟨⟨members, hfinds, ((hlayers _ _ _ hfinds).settles _ hload).symm⟩, hbad,
    (hfails other _ hbad).2, ⟨rfl, rfl, rfl, rfl, rfl⟩, hfile host _ _ ⟨rfl, rfl, rfl, rfl, rfl⟩⟩

end Settings

end TypedEnv
