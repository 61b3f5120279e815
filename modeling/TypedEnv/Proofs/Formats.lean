import Mathlib.Data.List.Forall2
import TypedEnv.Error
import TypedEnv.Proofs.Document
import TypedEnv.Schema.Toml

/-!
One tree in two formats.  A TOML text and a JSON text of the same tree, without dates and nulls and
with finite numbers only, are seen alike wherever a schema is read from them, but for the words of
messages.  Hence they give the same schema, are refused for the same names in the same order, or
fail at the same field.
-/

namespace TypedEnv

namespace Toml.Value

mutual

/-- The value has no dates in it and finite numbers only, so that its document tells it. -/
def isPlain : Value → Bool
  | string _ | integer _ | boolean _ => true
  | float x => x.isFinite
  | datetime _ => false
  | array items => itemsPlain items
  | table members => membersPlain members

def itemsPlain : List Value → Bool
  | [] => true
  | item :: items => isPlain item && itemsPlain items

def membersPlain : List (String × Value) → Bool
  | [] => true
  | (_, value) :: members => isPlain value && membersPlain members

end

end Toml.Value

/-- What comes of two schema files alike: the same schema, a refusal for the same names in the same
order, or a failure at the same field. -/
inductive Schema.SameVerdict : Except Error Schema → Except Error Schema → Prop
  | loaded (schema : Schema) : SameVerdict (.ok schema) (.ok schema)
  | refused {path other : String} {keys others : List UnknownKey}
      (h : keys.map UnknownKey.key = others.map UnknownKey.key) :
      SameVerdict (.error (.unknownSchemaKeys path keys)) (.error (.unknownSchemaKeys other others))
  | invalid (field : String) (fault other : SpecFault) :
      SameVerdict (.error (.invalidSchema field fault)) (.error (.invalidSchema field other))

def SameNames {α β : Type} (R : α → β → Prop) :
    List (String × α) → List (String × β) → Prop :=
  List.Forall₂ fun a b => a.1 = b.1 ∧ R a.2 b.2

structure Sight.Alike (a b : Sight) : Prop where
  shape_eq : a.shape = b.shape
  document_eq : a.document = b.document

inductive FileEntry.Alike : FileEntry → FileEntry → Prop
  | name (typeId : String) : Alike (.name typeId) (.name typeId)
  | table {members others : List (String × Sight)} (h : SameNames Sight.Alike members others) :
      Alike (.table members) (.table others)
  | other (word other : String) : Alike (.other word) (.other other)

namespace Toml.Value

variable {value : Value} {members : List (String × Value)}

theorem isPlain_of_mem (h : membersPlain members = true) :
    ∀ member ∈ members, isPlain member.2 = true := by
  induction members with
  | nil => exact List.forall_mem_nil _
  | cons member members ih =>
    obtain ⟨key, value⟩ := member
    rw [membersPlain, Bool.and_eq_true] at h
    exact List.forall_mem_cons.2 ⟨h.1, ih h.2⟩

theorem sameNames_membersToDocuments {β γ : Type} {R : β → γ → Prop} {f : Value → β}
    {g : Document → γ} (h : ∀ member ∈ members, R (f member.2) (g member.2.toDocument)) :
    SameNames R (members.map fun member => (member.1, f member.2))
      ((membersToDocuments members).map fun member => (member.1, g member.2)) := by
  induction members with
  | nil => exact .nil
  | cons member members ih =>
    obtain ⟨key, value⟩ := member
    rw [List.forall_mem_cons] at h
    exact .cons ⟨rfl, h.1⟩ (ih h.2)

theorem sight_alike (h : isPlain value = true) : value.sight.Alike value.toDocument.sight := by
  cases value with
  | datetime text => cases h
  | float x =>
    rw [isPlain] at h
    constructor <;> simp [sight, toDocument, Document.sight, Document.ofBinary64, h]
  | _ => exact ⟨rfl, rfl⟩

theorem fileEntry_alike (h : isPlain value = true) :
    value.fileEntry.Alike value.toDocument.fileEntry := by
  cases value with
  | string s => exact .name s
  | integer n => exact .other _ _
  | float x =>
    rw [isPlain] at h
    rw [toDocument, Document.ofBinary64, if_pos h]
    exact .other _ _
  | boolean b => exact .other _ _
  | datetime text => cases h
  | array items => exact .other _ _
  | table members =>
    rw [isPlain] at h
    exact .table (sameNames_membersToDocuments fun member hmember =>
      sight_alike (isPlain_of_mem h member hmember))

end Toml.Value

namespace Draft

variable {draft : Draft} {name : String} {a b : Sight} {members as bs : List (String × Sight)}

theorem toOption_text (h : a.Alike b) : (text a).toOption = (text b).toOption := by
  unfold text
  rw [h.shape_eq]
  split <;> rfl

theorem toOption_bound (h : a.Alike b) : (bound a).toOption = (bound b).toOption := by
  unfold bound
  rw [h.shape_eq]
  split <;> rfl

theorem toOption_options (h : a.Alike b) : (options a).toOption = (options b).toOption := by
  unfold options
  rw [h.shape_eq]
  split <;> rfl

theorem fallbackOf_alike (h : a.Alike b) : fallbackOf a = fallbackOf b := by
  rw [fallbackOf, fallbackOf, h.shape_eq, h.document_eq]

theorem toOption_take (h : a.Alike b) (draft : Draft) (name : String) :
    (draft.take name a).toOption = (draft.take name b).toOption := by
  unfold take
  split
  · rw [toOption_map, toOption_map, toOption_text h]
  · rw [fallbackOf_alike h]
  · rw [toOption_map, toOption_map, toOption_bound h]
  · rw [toOption_map, toOption_map, toOption_bound h]
  · split
    · rfl
    · rw [toOption_map, toOption_map, toOption_options h]

theorem takeAll_fst_of_known (h : isKnown name = true) :
    (draft.takeAll ((name, a) :: members)).1 =
      (draft.take name a).toOption.elim [] fun next => (next.takeAll members).1 := by
  rw [takeAll, if_pos h]
  cases draft.take name a <;> rfl

theorem toOption_takeAll_snd_of_known (h : isKnown name = true) :
    (draft.takeAll ((name, a) :: members)).2.toOption =
      (draft.take name a).toOption.bind fun next => (next.takeAll members).2.toOption := by
  rw [takeAll, if_pos h]
  cases draft.take name a <;> rfl

theorem takeAll_alike (h : SameNames Sight.Alike as bs) (draft : Draft) :
    (draft.takeAll as).1 = (draft.takeAll bs).1 ∧
      (draft.takeAll as).2.toOption = (draft.takeAll bs).2.toOption := by
  induction h generalizing draft with
  | nil => exact ⟨rfl, rfl⟩
  | @cons a b as bs hhead htail ih =>
    obtain ⟨name, sight⟩ := a
    obtain ⟨other, sight'⟩ := b
    obtain ⟨hnames, hsights⟩ := hhead
    cases hnames
    cases hname : isKnown name with
    | false => simp [takeAll, hname, ih]
    | true =>
      rw [takeAll_fst_of_known hname, takeAll_fst_of_known hname,
        toOption_takeAll_snd_of_known hname, toOption_takeAll_snd_of_known hname,
        toOption_take hsights]
      cases (draft.take name sight').toOption with
      | none => exact ⟨rfl, rfl⟩
      | some next => exact ih next

end Draft

variable {a b : FileEntry} {as bs : List (String × FileEntry)}

theorem FieldSpec.toOption_ofEntry (h : a.Alike b) :
    (ofEntry a).toOption = (ofEntry b).toOption := by
  cases h with
  | name typeId => rfl
  | table hmembers =>
    rw [ofEntry, ofEntry, toOption_map, toOption_map, FieldRule.ofMembers, FieldRule.ofMembers,
      toOption_bind, toOption_bind, (Draft.takeAll_alike hmembers .empty).2]
  | other word other => rfl

namespace Schema

theorem unknownKeys_alike (h : SameNames FileEntry.Alike as bs) :
    unknownKeys as = unknownKeys bs := by
  induction h with
  | nil => rfl
  | @cons a b as bs hhead htail ih =>
    obtain ⟨field, entry⟩ := a
    obtain ⟨other, entry'⟩ := b
    obtain ⟨hfields, hentries⟩ := hhead
    cases hfields
    rw [unknownKeys, List.flatMap_cons, ← unknownKeys, ih, unknownKeys, unknownKeys,
      List.flatMap_cons]
    cases hentries with
    | name typeId => rfl
    | table hmembers =>
      simp only [FieldRule.unknownNames, (Draft.takeAll_alike hmembers .empty).1]
    | other word other => rfl

theorem ofEntries_cons (field : String) (entry : FileEntry) (schema : Schema) :
    (ofEntries ((field, entry) :: as) schema).mapError Prod.fst =
      (FieldSpec.ofEntry entry).toOption.elim (.error field) fun spec =>
        (ofEntries as (schema.field field spec)).mapError Prod.fst := by
  rw [ofEntries]
  cases FieldSpec.ofEntry entry <;> rfl

theorem ofEntries_alike (h : SameNames FileEntry.Alike as bs) (schema : Schema) :
    (ofEntries as schema).mapError Prod.fst = (ofEntries bs schema).mapError Prod.fst := by
  induction h generalizing schema with
  | nil => rfl
  | @cons a b as bs hhead htail ih =>
    obtain ⟨field, entry⟩ := a
    obtain ⟨other, entry'⟩ := b
    obtain ⟨hfields, hentries⟩ := hhead
    cases hfields
    rw [ofEntries_cons, ofEntries_cons, FieldSpec.toOption_ofEntry hentries]
    cases (FieldSpec.ofEntry entry').toOption with
    | none => rfl
    | some spec => exact ih (schema.field field spec)

theorem sameVerdict_of_mapError {x y : Except (String × SpecFault) Schema}
    (h : x.mapError Prod.fst = y.mapError Prod.fst) :
    SameVerdict (x.mapError fun fault => .invalidSchema fault.1 fault.2)
      (y.mapError fun fault => .invalidSchema fault.1 fault.2) := by
  cases x with
  | ok schema =>
    cases y with
    | ok other =>
      cases h
      exact .loaded schema
    | error fault => cases h
  | error fault =>
    cases y with
    | ok schema => cases h
    | error other =>
      obtain ⟨field, own⟩ := fault
      obtain ⟨_, foreign⟩ := other
      cases h
      exact .invalid field own foreign

theorem ofFile_alike (h : SameNames FileEntry.Alike as bs) (strict : Bool) (path other : String)
    (lineOf lineOf' : String → Nat) :
    SameVerdict (ofFile strict path lineOf as) (ofFile strict other lineOf' bs) := by
  unfold ofFile
  rw [unknownKeys_alike h]
  cases if strict then unknownKeys bs else [] with
  | nil => exact sameVerdict_of_mapError (ofEntries_alike h .empty)
  | cons key keys =>
    refine .refused ?_
    rw [List.map_map, List.map_map]
    rfl

/-- Texts of both formats for one tree come to the same. -/
theorem sameVerdict_of_text {toml json : String} {values : List (String × Toml.Value)}
    {fields : List (String × Document)}
    (htoml : (Toml.parse .initial toml.toList >>= Toml.canonicalText?) = some values)
    (hplain : Toml.Value.membersPlain values = true)
    (hjson : Json.parseObject json.toList = .ok fields)
    (htree : Toml.Value.membersToDocuments values = fields) (tomlPath jsonPath : String)
    (strict : Bool) :
    SameVerdict (ofToml toml tomlPath strict) (ofJson json jsonPath strict) := by
  have halike : SameNames FileEntry.Alike
      (values.map fun field => (field.1, field.2.fileEntry))
      (fields.map fun field => (field.1, field.2.fileEntry)) := by
    rw [← htree]
    exact Toml.Value.sameNames_membersToDocuments fun field hfield =>
      Toml.Value.fileEntry_alike (Toml.Value.isPlain_of_mem hplain field hfield)
  rw [ofToml, htoml, ofJson, hjson]
  exact ofFile_alike halike strict tomlPath jsonPath _ _

theorem sameVerdict_of_text_nested :
    let toml := "[B]\nmin = 1\n[A]\nmni = 2\ntype = \"float\"\nmin = -1.5\n" ++
      "default.x = [1, true, \"s\"]\n"
    let json := "\x7b\"A\": \x7b\"default\": \x7b\"x\": [1, true, \"s\"]\x7d, " ++
      "\"min\": -15e-1, \"mni\": 2, \"type\": \"float\"\x7d, \"B\": \x7b\"min\": 1\x7d\x7d"
    ∃ values, (Toml.parse .initial toml.toList >>= Toml.canonicalText?) = some values ∧
      Toml.Value.membersPlain values = true ∧
      Json.parseObject json.toList = .ok (Toml.Value.membersToDocuments values) ∧
      ∀ strict, SameVerdict (ofToml toml "s.toml" strict) (ofJson json "s.json" strict) := by
  intro toml json
  have hplain : (Toml.parse .initial toml.toList >>= Toml.canonicalText?).map
      Toml.Value.membersPlain = some true := by decide +kernel
  have htree : (Json.parseObject json.toList).toOption =
      (Toml.parse .initial toml.toList >>= Toml.canonicalText?).map
        Toml.Value.membersToDocuments := by decide +kernel
  obtain ⟨values, hvalues, hown⟩ := Option.map_eq_some_iff.1 hplain
  rw [hvalues, Option.map_some] at htree
  cases hfields : Json.parseObject json.toList with
  | error fault =>
    rw [hfields] at htree
    cases htree
  | ok fields =>
    rw [hfields] at htree
    cases htree
    exact ⟨values, hvalues, hown, rfl,
      sameVerdict_of_text hvalues hown hfields rfl "s.toml" "s.json"⟩

end Schema

end TypedEnv
