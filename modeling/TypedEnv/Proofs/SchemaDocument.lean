import Mathlib.Control.Monad.Basic
import TypedEnv.Proofs.Dict
import TypedEnv.Proofs.Document
import TypedEnv.Schema.Json

/-!
Schemas written as documents and read back.  The document of a rule holds the settings that are set,
in key order, and each of them is taken back into the same setting.  Null stands for a setting that
is not set, so a schema comes back if no fallback is an explicit null and the bounds are finite,
both out of its document and out of a JSON text of that document, read strictly or not.
-/

namespace TypedEnv

/-- The rule sets nothing to a value that its document writes as null. -/
structure FieldRule.Writable (rule : FieldRule) : Prop where
  fallback_ne : rule.fallback ≠ some .null
  min_isFinite : ∀ bound, rule.min = some bound → bound.isFinite = true
  max_isFinite : ∀ bound, rule.max = some bound → bound.isFinite = true

def FieldSpec.Writable : FieldSpec → Prop
  | type _ => True
  | rule own => own.Writable

def Schema.Writable (schema : Schema) : Prop :=
  ∀ entry ∈ schema.fields.entries, entry.2.Writable

def setting {α : Type} (name : String) (view : α → Document) (value : Option α) :
    List (String × Document) :=
  (value.map fun own => (name, view own)).toList

def sights (members : List (String × Document)) : List (String × Sight) :=
  members.map fun member => (member.1, member.2.sight)

@[simp] theorem sights_append (members later : List (String × Document)) :
    sights (members ++ later) = sights members ++ sights later :=
  List.map_append

theorem Document.sight_boundDocument {bound : Binary64} (h : bound.isFinite = true) :
    (boundDocument bound).sight.shape = .number bound := by
  simp [boundDocument, Document.ofBinary64, h, Document.sight]

namespace Draft

variable {draft next : Draft} {name : String} {rest : List (String × Sight)}

theorem takeAll_setting {α : Type} {view : α → Document} {value : Option α}
    (hname : isKnown name = true)
    (hset : ∀ own, value = some own → draft.take name (view own).sight = .ok next)
    (hunset : value = none → draft = next) :
    draft.takeAll (sights (setting name view value) ++ rest) = next.takeAll rest := by
  cases value with
  | none =>
    rw [hunset rfl]
    rfl
  | some own =>
    show draft.takeAll ((name, (view own).sight) :: rest) = next.takeAll rest
    rw [takeAll, if_pos hname, hset own rfl]

theorem take_default {value : Document} (h : value ≠ .null) :
    draft.take "default" value.sight = .ok { draft with fallback := some value } := by
  cases value with
  | null => exact absurd rfl h
  | _ => rfl

theorem take_min {bound : Binary64} (h : bound.isFinite = true) :
    draft.take "min" (boundDocument bound).sight = .ok { draft with min := some bound } := by
  simp [take, Draft.bound, Document.sight_boundDocument h, Except.map]

theorem take_max {bound : Binary64} (h : bound.isFinite = true) :
    draft.take "max" (boundDocument bound).sight = .ok { draft with max := some bound } := by
  simp [take, Draft.bound, Document.sight_boundDocument h, Except.map]

theorem take_oneOf (h : draft.oneOf = none) (options : List Document) :
    draft.take "oneOf" (Document.array options).sight =
      .ok { draft with oneOf := some (some options) } := by
  simp [take, h, Draft.options, Document.sight, Except.map]

end Draft

namespace FieldRule

variable {rule : FieldRule}

def settings (rule : FieldRule) : List (String × Document) :=
  setting "default" id rule.fallback ++
    (setting "max" boundDocument rule.max ++
      (setting "min" boundDocument rule.min ++
        (setting "oneOf" .array rule.oneOf ++ [("type", .string rule.typeId)])))

theorem toDocument_eq (rule : FieldRule) : rule.toDocument = .object rule.settings := by
  obtain ⟨typeId, fallback, oneOf, min, max⟩ := rule
  cases fallback <;> cases oneOf <;> cases min <;> cases max <;>
    simp only [toDocument, settings, setting, Document.ofMembers, insertEntry, id_eq, ↓reduceIte,
      Option.map_none, Option.map_some, Option.toList_none, Option.toList_some, List.nil_append,
      List.append_nil, List.cons_append, List.foldl_nil, List.foldl_cons, String.reduceEq,
      String.reduceLT]

def draft (rule : FieldRule) : Draft :=
  ⟨some rule.typeId, rule.fallback, rule.oneOf.map some, rule.min, rule.max⟩

theorem takeAll_settings (h : rule.Writable) :
    Draft.empty.takeAll (sights rule.settings) = ([], .ok rule.draft) := by
  obtain ⟨typeId, fallback, oneOf, min, max⟩ := rule
  obtain ⟨hfallback, hmin, hmax⟩ := h
  dsimp only at hfallback hmin hmax
  -- The settings are taken from left to right, each on top of those before it.
  have hdefault : ∀ own, fallback = some own → Draft.empty.take "default" (id own).sight =
      .ok ⟨none, fallback, none, none, none⟩ := by
    rintro own rfl
    exact Draft.take_default fun hnull => hfallback (congrArg some hnull)
  have hmaximum : ∀ bound, max = some bound →
      (⟨none, fallback, none, none, none⟩ : Draft).take "max" (boundDocument bound).sight =
        .ok ⟨none, fallback, none, none, max⟩ := by
    rintro bound rfl
    exact Draft.take_max (hmax bound rfl)
  have hminimum : ∀ bound, min = some bound →
      (⟨none, fallback, none, none, max⟩ : Draft).take "min" (boundDocument bound).sight =
        .ok ⟨none, fallback, none, min, max⟩ := by
    rintro bound rfl
    exact Draft.take_min (hmin bound rfl)
  have hoptions : ∀ options, oneOf = some options →
      (⟨none, fallback, none, min, max⟩ : Draft).take "oneOf" (Document.array options).sight =
        .ok ⟨none, fallback, oneOf.map some, min, max⟩ := by
    rintro options rfl
    exact Draft.take_oneOf rfl options
  simp only [settings, sights_append]
  rw [Draft.takeAll_setting rfl hdefault (by rintro rfl; rfl),
    Draft.takeAll_setting rfl hmaximum (by rintro rfl; rfl),
    Draft.takeAll_setting rfl hminimum (by rintro rfl; rfl),
    Draft.takeAll_setting rfl hoptions (by rintro rfl; rfl)]
  rfl

theorem ofMembers_settings (h : rule.Writable) : ofMembers (sights rule.settings) = .ok rule := by
  have hoptions : (rule.oneOf.map some).join = rule.oneOf := by cases rule.oneOf <;> rfl
  rw [ofMembers, takeAll_settings h]
  simp [bind, Except.bind, Draft.finish, draft, hoptions]

theorem unknownNames_settings (h : rule.Writable) : unknownNames (sights rule.settings) = [] := by
  rw [unknownNames, takeAll_settings h]

end FieldRule

namespace FieldSpec

variable {spec : FieldSpec}

theorem ofDocument?_toDocument (h : spec.Writable) : ofDocument? spec.toDocument = some spec := by
  cases spec with
  | type typeId => rfl
  | rule own =>
    rw [toDocument, FieldRule.toDocument_eq]
    show (FieldRule.ofMembers (sights own.settings)).toOption.map rule = some (.rule own)
    rw [FieldRule.ofMembers_settings h]
    rfl

theorem ofEntry_toDocument (h : spec.Writable) : ofEntry spec.toDocument.fileEntry = .ok spec := by
  cases spec with
  | type typeId => rfl
  | rule own =>
    rw [toDocument, FieldRule.toDocument_eq]
    show (FieldRule.ofMembers (sights own.settings)).map rule = .ok (.rule own)
    rw [FieldRule.ofMembers_settings h]
    rfl

end FieldSpec

namespace Schema

variable {schema : Schema}

theorem writable_empty : empty.Writable := List.forall_mem_nil _

theorem Writable.field (h : schema.Writable) {spec : FieldSpec} (hspec : spec.Writable)
    (name : String) : (schema.field name spec).Writable := by
  rintro ⟨key, own⟩ hentry
  rw [← Dict.get?_eq_some_iff] at hentry
  replace hentry : (if key = name then some spec else schema.fields.get? key) = some own := by
    rw [← hentry]
    exact (Dict.get?_insert schema.fields name key spec).symm
  split at hentry
  · cases hentry
    exact hspec
  · exact h (key, own) (Dict.get?_eq_some_iff.1 hentry)

def documents (fields : List (String × FieldSpec)) : List (String × Document) :=
  fields.map fun entry => (entry.1, entry.2.toDocument)

def fileEntries (members : List (String × Document)) : List (String × FileEntry) :=
  members.map fun member => (member.1, member.2.fileEntry)

def withFields (schema : Schema) (fields : List (String × FieldSpec)) : Schema :=
  fields.foldl (fun schema entry => schema.field entry.1 entry.2) schema

theorem fields_withFields (schema : Schema) (fields : List (String × FieldSpec)) :
    (schema.withFields fields).fields =
      fields.foldl (fun dict entry => dict.insert entry.1 entry.2) schema.fields := by
  induction fields generalizing schema with
  | nil => rfl
  | cons entry later ih => exact ih (schema.field entry.1 entry.2)

theorem withFields_entries (schema : Schema) : empty.withFields schema.fields.entries = schema := by
  have hfields : (empty.withFields schema.fields.entries).fields = schema.fields := by
    rw [fields_withFields]
    exact schema.fields.ofList_entries
  exact congrArg Schema.mk hfields

theorem ofMembers_documents {fields : List (String × FieldSpec)}
    (h : ∀ entry ∈ fields, entry.2.Writable) (start : Schema) :
    ofMembers (documents fields) start = .ok (start.withFields fields) := by
  induction fields generalizing start with
  | nil => rfl
  | cons entry later ih =>
    rw [List.forall_mem_cons] at h
    show ofMembers ((entry.1, entry.2.toDocument) :: documents later) start = _
    rw [ofMembers, FieldSpec.ofDocument?_toDocument h.1]
    exact ih h.2 _

theorem ofEntries_documents {fields : List (String × FieldSpec)}
    (h : ∀ entry ∈ fields, entry.2.Writable) (start : Schema) :
    ofEntries (fileEntries (documents fields)) start = .ok (start.withFields fields) := by
  induction fields generalizing start with
  | nil => rfl
  | cons entry later ih =>
    rw [List.forall_mem_cons] at h
    show ofEntries
      ((entry.1, entry.2.toDocument.fileEntry) :: fileEntries (documents later)) start = _
    rw [ofEntries, FieldSpec.ofEntry_toDocument h.1]
    exact ih h.2 _

theorem unknownKeys_documents {fields : List (String × FieldSpec)}
    (h : ∀ entry ∈ fields, entry.2.Writable) :
    unknownKeys (fileEntries (documents fields)) = [] := by
  apply List.flatMap_eq_nil_iff.2
  intro member hmember
  obtain ⟨document, hdocument, rfl⟩ := List.mem_map.1 hmember
  obtain ⟨⟨name, spec⟩, hentry, rfl⟩ := List.mem_map.1 hdocument
  have hspec : spec.Writable := h _ hentry
  cases spec with
  | type typeId => rfl
  | rule own =>
    rw [FieldSpec.toDocument, FieldRule.toDocument_eq]
    show (FieldRule.unknownNames (sights own.settings)).map _ = []
    rw [FieldRule.unknownNames_settings hspec, List.map_nil]

/-- A schema comes back out of its document, and out of any JSON text of that document. -/
theorem ofDocument_toDocument (h : schema.Writable) :
    ofDocument schema.toDocument = .ok schema ∧
      ∀ (text path : String) (strict : Bool) (members : List (String × Document)),
        Json.parseObject text.toList = .ok members → schema.toDocument = .object members →
          ofJson text path strict = .ok schema := by
  constructor
  · show ofMembers (documents schema.fields.entries) empty = .ok schema
    rw [ofMembers_documents h, withFields_entries]
  · intro text path strict members hparse hmembers
    obtain rfl : documents schema.fields.entries = members := Document.object.inj hmembers
    have hunknown : (if strict then unknownKeys (fileEntries (documents schema.fields.entries))
        else []) = [] := by
      rw [unknownKeys_documents h, ite_self]
    rw [ofJson, hparse]
    show ofFile strict path _ (fileEntries (documents schema.fields.entries)) = .ok schema
    rw [ofFile, hunknown]
    dsimp only
    rw [ofEntries_documents h, withFields_entries]
    rfl

theorem ofDocument_toDocument_settings :
    let level : FieldRule := {
      typeId := "string"
      fallback := some (.object [("a", .array [.null])])
      oneOf := some [.null, .array [.int 1], .string "x"]
      min := some (.ofInt 1)
      max := some (.ofInt 5) }
    let schema := (empty.field "PORT" (.type "int|boolean")).field "LEVEL" (.rule level)
    let text := "\x7b\"LEVEL\": \x7b\"min\": 1.0, \"max\": 5.0, \"type\": \"string\", " ++
      "\"default\": \x7b\"a\": [null]\x7d, \"oneOf\": [null, [1], \"x\"]\x7d, " ++
      "\"PORT\": \"int|boolean\"\x7d"
    schema.Writable ∧ ∃ members, Json.parseObject text.toList = .ok members ∧
      schema.toDocument = .object members ∧ ofDocument schema.toDocument = .ok schema ∧
      ofJson text "schema.json" true = .ok schema := by
  intro level schema text
  have hone : (Binary64.ofInt 1).isFinite = true := by decide +kernel
  have hfive : (Binary64.ofInt 5).isFinite = true := by decide +kernel
  have hlevel : FieldSpec.Writable (.rule level) :=
    ⟨nofun, fun bound hb => Option.some.inj hb ▸ hone, fun bound hb => Option.some.inj hb ▸ hfive⟩
  have hport : FieldSpec.Writable (.type "int|boolean") := trivial
  have hw : schema.Writable := (writable_empty.field hport "PORT").field hlevel "LEVEL"
  have hparse : Json.parseObject text.toList = .ok (documents schema.fields.entries) := by
    decide +kernel
  obtain ⟨hdocument, hjson⟩ := ofDocument_toDocument hw
  exact ⟨hw, _, hparse, rfl, hdocument, hjson text "schema.json" true _ hparse rfl⟩

end Schema

end TypedEnv
