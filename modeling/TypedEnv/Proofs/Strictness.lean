import Mathlib.Data.List.Basic
import TypedEnv.Proofs.Json
import TypedEnv.Schema.Toml

/-!
Strict and lenient readings of schema files.

A strict reading looks for strays, names in the tables of a file that no rule has.  Of each table it
looks at the members in front of the first one that ends the reading of the rule.  It refuses the
file for all strays of all its tables at once, also if some field cannot be read, and without strays
it is the lenient reading.
-/

namespace TypedEnv

/-- What the values of a file can stand for in a rule. -/
structure ValueKinds (α : Type) where
  isText : α → Bool
  isList : α → Bool
  isNumber : α → Bool
  members? : α → Option (List (String × α))

namespace ValueKinds

def toml : ValueKinds Toml.Value where
  isText
    | .string _ | .datetime _ => true
    | _ => false
  isList
    | .array _ => true
    | _ => false
  isNumber
    | .integer _ | .float _ => true
    | _ => false
  members?
    | .table members => some members
    | _ => none

def json : ValueKinds Document where
  isText
    | .string _ => true
    | _ => false
  isList
    | .array _ | .null => true
    | _ => false
  isNumber
    | .int _ | .float _ | .null => true
    | _ => false
  members?
    | .object members => some members
    | _ => none

variable {α : Type} (kinds : ValueKinds α)

def fits (name : String) (value : α) : Bool :=
  if name = "type" then kinds.isText value
  else if name = "oneOf" ∨ name = "one_of" then kinds.isList value
  else if name = "min" ∨ name = "max" then kinds.isNumber value
  else true

/-- The members in front of the first one that ends the reading: its value does not fit, or it gives
the options a second time under their other name. -/
def readable (given : Bool) (members : List (String × α)) : List (String × α) :=
  members.takeWhile fun member =>
    kinds.fits member.1 member.2 && !(member.1 == "one_of" && given)

def gives (name : String) (members : List (String × α)) : Bool := members.any (·.1 == name)

def strays (members : List (String × α)) : List String :=
  ((kinds.readable (gives "oneOf" members) members).filter (!Draft.isKnown ·.1)).map Prod.fst

def strayKeys (fields : List (String × α)) : List String :=
  fields.flatMap fun field =>
    ((kinds.members? field.2).elim [] kinds.strays).map fun name => field.1 ++ "." ++ name

end ValueKinds

/-- What a strict reading owes to the strays of a file and to its lenient reading; `read` tells what
comes of either. -/
structure Schema.StrictReading {α : Type} (kinds : ValueKinds α) (path : String)
    (fields : List (String × α)) (read : Bool → Except Error Schema) : Prop where
  fields_sorted : (fields.map Prod.fst).Pairwise (· < ·)
  names_sorted : ∀ field ∈ fields, ∀ members, kinds.members? field.2 = some members →
    (members.map Prod.fst).Pairwise (· < ·)
  refused : kinds.strayKeys fields ≠ [] → ∃ keys,
    read true = .error (.unknownSchemaKeys path keys) ∧
      keys.map UnknownKey.key = kinds.strayKeys fields
  lenient : kinds.strayKeys fields = [] → read true = read false
  ok_of_strict : ∀ schema, read true = .ok schema → read false = .ok schema
  own_names : ∀ key ∈ kinds.strayKeys fields, ∃ field ∈ fields, ∃ members,
    kinds.members? field.2 = some members ∧ ∃ member ∈ members,
      Draft.isKnown member.1 = false ∧ key = field.1 ++ "." ++ member.1

def FileEntry.members? : FileEntry → Option (List (String × Sight))
  | table members => some members
  | _ => none

structure ValueKinds.Describes {α : Type} (kinds : ValueKinds α) (sight : α → Sight)
    (entry : α → FileEntry) : Prop where
  text : ∀ value, (Draft.text (sight value)).isOk = kinds.isText value
  options : ∀ value, (Draft.options (sight value)).isOk = kinds.isList value
  bound : ∀ value, (Draft.bound (sight value)).isOk = kinds.isNumber value
  members : ∀ value, (entry value).members? =
    (kinds.members? value).map fun members => members.map fun member => (member.1, sight member.2)

theorem ValueKinds.describes_toml : toml.Describes Toml.Value.sight Toml.Value.fileEntry where
  text value := by cases value <;> rfl
  options value := by cases value <;> rfl
  bound value := by cases value <;> rfl
  members value := by cases value <;> rfl

theorem ValueKinds.describes_json : json.Describes Document.sight Document.fileEntry where
  text value := by cases value <;> rfl
  options value := by cases value <;> rfl
  bound value := by cases value <;> rfl
  members value := by cases value <;> rfl

namespace Draft

variable {α : Type} {kinds : ValueKinds α} {sight : α → Sight} {entry : α → FileEntry}
  {draft next : Draft} {name : String} {value : α}

theorem isKnown_iff : isKnown name = true ↔ name = "type" ∨ name = "default" ∨ name = "oneOf" ∨
    name = "one_of" ∨ name = "min" ∨ name = "max" := by
  simp [isKnown]

theorem ne_of_unknown (h : isKnown name = false) (known : String) (hknown : isKnown known = true) :
    name ≠ known := by
  rintro rfl
  rw [h] at hknown
  cases hknown

def isOptions (name : String) : Bool := name == "oneOf" || name == "one_of"

theorem take_of_isOptions (h : isOptions name = true) (sight : Sight) :
    draft.take name sight = if draft.oneOf.isSome then .error .repeatedOneOf
      else (options sight).map fun oneOf => { draft with oneOf := some oneOf } := by
  simp only [isOptions, Bool.or_eq_true, beq_iff_eq] at h
  rcases h with rfl | rfl <;> rfl

theorem isOk_take (h : kinds.Describes sight entry) (hname : isKnown name = true) :
    (draft.take name (sight value)).isOk =
      (kinds.fits name value && !(isOptions name && draft.oneOf.isSome)) := by
  cases hoptions : isOptions name with
  | true =>
    have hfits : kinds.fits name value = kinds.isList value := by
      simp only [isOptions, Bool.or_eq_true, beq_iff_eq] at hoptions
      rcases hoptions with rfl | rfl <;> rfl
    rw [take_of_isOptions hoptions, hfits, ← h.options]
    cases draft.oneOf with
    | none => simp [isOk_map]
    | some _ => simp [Except.isOk, Except.toBool]
  | false =>
    rw [Bool.false_and, Bool.not_false, Bool.and_true]
    rcases isKnown_iff.1 hname with rfl | rfl | rfl | rfl | rfl | rfl
    · exact (isOk_map _ _).trans (h.text value)
    · rfl
    · cases hoptions
    · cases hoptions
    · exact (isOk_map _ _).trans (h.bound value)
    · exact (isOk_map _ _).trans (h.bound value)

theorem isSome_oneOf_of_take {sight : Sight} (hname : isKnown name = true)
    (h : draft.take name sight = .ok next) :
    next.oneOf.isSome = (isOptions name || draft.oneOf.isSome) := by
  cases hoptions : isOptions name with
  | true =>
    rw [take_of_isOptions hoptions] at h
    split at h
    · cases h
    · obtain ⟨own, -, rfl⟩ := exists_of_map_eq_ok h
      rfl
  | false =>
    rcases isKnown_iff.1 hname with rfl | rfl | rfl | rfl | rfl | rfl
    · obtain ⟨own, -, rfl⟩ := exists_of_map_eq_ok h
      rfl
    · cases h
      rfl
    · cases hoptions
    · cases hoptions
    · obtain ⟨own, -, rfl⟩ := exists_of_map_eq_ok h
      rfl
    · obtain ⟨own, -, rfl⟩ := exists_of_map_eq_ok h
      rfl

end Draft

namespace ValueKinds

variable {α : Type} {kinds : ValueKinds α} {sight : α → Sight} {entry : α → FileEntry}
  {draft next : Draft} {given : Bool} {name : String} {value : α}
  {later members : List (String × α)}

/-- In front of these members the options are taken exactly if the table gives them under their
first name, but not any more. -/
structure Pending (draft : Draft) (given : Bool) (members : List (String × α)) : Prop where
  of_gives : gives "oneOf" members = true → given = true
  taken : ∀ member ∈ members, Draft.isOptions member.1 = true →
    draft.oneOf.isSome = (given && !gives "oneOf" members)

theorem pending_empty (members : List (String × α)) :
    Pending .empty (gives "oneOf" members) members where
  of_gives := id
  taken _ _ _ := by rw [Bool.and_not_self]; rfl

theorem ne_of_lt_of_mem (hlt : ∀ key ∈ later.map Prod.fst, name < key) {first : String}
    (hle : first ≤ name) {member : String × α} (hmember : member ∈ later) : member.1 ≠ first := by
  rintro rfl
  have := hlt member.1 (List.mem_map_of_mem hmember)
  exact String.not_lt.2 hle this

theorem gives_oneOf_later (hlt : ∀ key ∈ later.map Prod.fst, name < key)
    (hoptions : Draft.isOptions name = true) : gives "oneOf" later = false := by
  have hle : "oneOf" ≤ name := by
    simp only [Draft.isOptions, Bool.or_eq_true, beq_iff_eq] at hoptions
    rcases hoptions with rfl | rfl <;> decide
  apply List.any_eq_false.2
  intro member hmember
  simpa using ne_of_lt_of_mem hlt hle hmember

theorem gives_cons_of_ne (h : name ≠ "oneOf") :
    gives "oneOf" ((name, value) :: later) = gives "oneOf" later := by
  simp [gives, h]

theorem Pending.tail (h : Pending draft given ((name, value) :: later))
    (hlt : ∀ key ∈ later.map Prod.fst, name < key)
    (hnext : next.oneOf.isSome = (Draft.isOptions name || draft.oneOf.isSome)) :
    Pending next given later := by
  by_cases hfirst : name = "oneOf"
  · have hgiven : given = true := h.of_gives (by simp [gives, hfirst])
    have hlater : gives "oneOf" later = false :=
      gives_oneOf_later hlt (by simp [hfirst, Draft.isOptions])
    constructor
    case of_gives => exact fun _ => hgiven
    case taken =>
      intro member _ _
      rw [hnext, hgiven, hlater, hfirst]
      rfl
  · have hgives : gives "oneOf" ((name, value) :: later) = gives "oneOf" later :=
      gives_cons_of_ne hfirst
    constructor
    case of_gives =>
      intro hg
      exact h.of_gives (hgives.trans hg)
    case taken =>
      intro member hmember hoptions
      have hsecond : name ≠ "one_of" := by
        rintro rfl
        simp only [Draft.isOptions, Bool.or_eq_true, beq_iff_eq] at hoptions
        rcases hoptions with hone | hone
        · exact ne_of_lt_of_mem hlt (by decide) hmember hone
        · exact ne_of_lt_of_mem hlt (by decide) hmember hone
      have hname : Draft.isOptions name = false := by simp [Draft.isOptions, hfirst, hsecond]
      rw [hnext, hname, Bool.false_or, ← hgives]
      exact h.taken member (List.mem_cons_of_mem _ hmember) hoptions

theorem isOk_take_of_pending (h : kinds.Describes sight entry)
    (hpending : Pending draft given ((name, value) :: later))
    (hlt : ∀ key ∈ later.map Prod.fst, name < key) (hname : Draft.isKnown name = true) :
    (draft.take name (sight value)).isOk =
      (kinds.fits name value && !(name == "one_of" && given)) := by
  rw [Draft.isOk_take h hname]
  cases hoptions : Draft.isOptions name with
  | false =>
    have hsecond : name ≠ "one_of" := by
      rintro rfl
      cases hoptions
    simp [hsecond]
  | true =>
    rw [hpending.taken _ List.mem_cons_self hoptions]
    by_cases hfirst : name = "oneOf"
    · simp [gives, hfirst]
    · have hsecond : name = "one_of" := by simpa [Draft.isOptions, hfirst] using hoptions
      rw [gives_cons_of_ne hfirst, gives_oneOf_later hlt hoptions]
      simp [hsecond]

theorem not_isOptions_of_unknown (hname : Draft.isKnown name = false) :
    Draft.isOptions name = false := by
  simp [Draft.isOptions, Draft.ne_of_unknown hname "oneOf" rfl,
    Draft.ne_of_unknown hname "one_of" rfl]

theorem fits_of_unknown (hname : Draft.isKnown name = false) (value : α) :
    kinds.fits name value = true := by
  simp [fits, Draft.ne_of_unknown hname "type" rfl, Draft.ne_of_unknown hname "oneOf" rfl,
    Draft.ne_of_unknown hname "one_of" rfl, Draft.ne_of_unknown hname "min" rfl,
    Draft.ne_of_unknown hname "max" rfl]

theorem takeAll_fst (h : kinds.Describes sight entry)
    (hsorted : (members.map Prod.fst).Pairwise (· < ·)) (hpending : Pending draft given members) :
    (draft.takeAll (members.map fun member => (member.1, sight member.2))).1 =
      ((kinds.readable given members).filter (!Draft.isKnown ·.1)).map Prod.fst := by
  induction members generalizing draft with
  | nil => rfl
  | cons member later ih =>
    obtain ⟨name, value⟩ := member
    rw [List.map_cons, List.pairwise_cons] at hsorted
    rw [List.map_cons, Draft.takeAll, readable, List.takeWhile_cons, ← readable]
    cases hname : Draft.isKnown name with
    | false =>
      have hsecond : name ≠ "one_of" := Draft.ne_of_unknown hname "one_of" rfl
      have htail : Pending draft given later :=
        hpending.tail hsorted.1 (by rw [not_isOptions_of_unknown hname, Bool.false_or])
      have hrest := ih hsorted.2 htail
      simp [fits_of_unknown hname, hsecond, hname, hrest]
    | true =>
      have hok := isOk_take_of_pending h hpending hsorted.1 hname
      cases htake : draft.take name (sight value) with
      | error fault =>
        rw [htake] at hok
        rw [← hok]
        rfl
      | ok next =>
        rw [htake] at hok
        have htail : Pending next given later :=
          hpending.tail hsorted.1 (Draft.isSome_oneOf_of_take hname htake)
        have hrest := ih hsorted.2 htail
        rw [← hok]
        simp [hname, hrest, Except.isOk, Except.toBool]

theorem unknownNames_eq (h : kinds.Describes sight entry)
    (hsorted : (members.map Prod.fst).Pairwise (· < ·)) :
    FieldRule.unknownNames (members.map fun member => (member.1, sight member.2)) =
      kinds.strays members :=
  takeAll_fst h hsorted (pending_empty members)

end ValueKinds

namespace Toml

theorem eq_datetime_of_datetime? {edition : Edition} {text rest : List Char} {value : Value}
    (h : datetime? edition text = some (value, rest)) : ∃ date, value = .datetime date := by
  unfold datetime? at h
  split at h
  · obtain ⟨_, -, heq⟩ := Option.map_eq_some_iff.1 h
    cases heq
    exact ⟨_, rfl⟩
  · split at h
    · split at h
      · split at h
        · cases h
          exact ⟨_, rfl⟩
        · obtain ⟨_, -, heq⟩ := Option.map_eq_some_iff.1 h
          cases heq
          exact ⟨_, rfl⟩
      · cases h
        exact ⟨_, rfl⟩
    · cases h
      exact ⟨_, rfl⟩

theorem dateOfText?_ne_table (text : String) (members : List (String × Value)) :
    dateOfText? text ≠ some (.table members) := by
  intro h
  unfold dateOfText? at h
  split at h
  · next hdate =>
    obtain ⟨_, rfl⟩ := eq_datetime_of_datetime? hdate
    cases h
  · cases h

/-- A table that is not a date stays one, with its members canonical and in key order. -/
theorem exists_of_canonical?_eq_table {value : Value} {members : List (String × Value)}
    (h : value.canonical? = some (.table members)) : ∃ written own, value = .table written ∧
      Value.canonicalMembers? written = some own ∧ members = (Dict.ofList own).entries := by
  cases value with
  | table written =>
    rw [Value.canonical?] at h
    split at h
    · exact absurd h (dateOfText?_ne_table _ _)
    · cases h
    · obtain ⟨own, hown, heq⟩ := Option.map_eq_some_iff.1 h
      cases heq
      exact ⟨written, own, rfl, hown, rfl⟩
  | array items =>
    obtain ⟨own, -, heq⟩ := Option.map_eq_some_iff.1 h
    cases heq
  | _ => cases h

theorem sorted_of_canonical? {value : Value} {members : List (String × Value)}
    (h : value.canonical? = some (.table members)) : (members.map Prod.fst).Pairwise (· < ·) := by
  obtain ⟨-, own, -, -, rfl⟩ := exists_of_canonical?_eq_table h
  exact (Dict.ofList own).sorted

theorem exists_of_mem_canonicalMembers? {written members : List (String × Value)}
    (h : Value.canonicalMembers? written = some members) {member : String × Value}
    (hmember : member ∈ members) :
    ∃ value : Value, (member.1, value) ∈ written ∧ value.canonical? = some member.2 := by
  induction written generalizing members with
  | nil =>
    cases h
    cases hmember
  | cons first later ih =>
    obtain ⟨key, value⟩ := first
    rw [Value.canonicalMembers?] at h
    obtain ⟨own, hown, h⟩ := Option.bind_eq_some_iff.1 h
    obtain ⟨rest, hrest, h⟩ := Option.bind_eq_some_iff.1 h
    cases h
    rcases List.mem_cons.1 hmember with rfl | hmember
    · exact ⟨value, List.mem_cons_self, hown⟩
    · obtain ⟨value, hvalue, hcanonical⟩ := ih hrest hmember
      exact ⟨value, List.mem_cons_of_mem _ hvalue, hcanonical⟩

theorem sorted_of_canonicalText? {written fields : List (String × Value)}
    (h : canonicalText? written = some fields) :
    (fields.map Prod.fst).Pairwise (· < ·) ∧ ∀ field ∈ fields, ∀ members,
      field.2 = .table members → (members.map Prod.fst).Pairwise (· < ·) := by
  obtain ⟨own, hown, rfl⟩ := Option.map_eq_some_iff.1 h
  refine ⟨(Dict.ofList own).sorted, fun field hfield members htable => ?_⟩
  obtain ⟨value, -, hvalue⟩ := exists_of_mem_canonicalMembers? hown (Dict.mem_of_mem_ofList hfield)
  rw [htable] at hvalue
  exact sorted_of_canonical? hvalue

end Toml

namespace Schema

variable {α : Type} {kinds : ValueKinds α} {sight : α → Sight} {entry : α → FileEntry}
  {fields : List (String × α)}

theorem unknownKeys_eq (entries : List (String × FileEntry)) :
    unknownKeys entries = entries.flatMap fun field =>
      (field.2.members?.elim [] FieldRule.unknownNames).map fun name => field.1 ++ "." ++ name := by
  apply List.flatMap_congr
  rintro ⟨field, entry⟩ -
  cases entry <;> rfl

theorem unknownKeys_eq_strayKeys (h : kinds.Describes sight entry)
    (hsorted : ∀ field ∈ fields, ∀ members, kinds.members? field.2 = some members →
      (members.map Prod.fst).Pairwise (· < ·)) :
    unknownKeys (fields.map fun field => (field.1, entry field.2)) = kinds.strayKeys fields := by
  rw [unknownKeys_eq, List.flatMap_map]
  apply List.flatMap_congr
  rintro ⟨name, value⟩ hfield
  dsimp only
  rw [h.members]
  cases hmembers : kinds.members? value with
  | none => rfl
  | some members =>
    have hnames := ValueKinds.unknownNames_eq h (hsorted _ hfield members hmembers)
    simp [hnames]

theorem ofFile_strict (path : String) (lineOf : String → Nat)
    (entries : List (String × FileEntry)) :
    ofFile true path lineOf entries =
      if unknownKeys entries = [] then ofFile false path lineOf entries
      else .error (.unknownSchemaKeys path
        ((unknownKeys entries).map fun key => ⟨key, lineOf key⟩)) := by
  unfold ofFile
  cases unknownKeys entries <;> rfl

theorem strictReading_ofFile (h : kinds.Describes sight entry)
    (hfields : (fields.map Prod.fst).Pairwise (· < ·))
    (hnames : ∀ field ∈ fields, ∀ members, kinds.members? field.2 = some members →
      (members.map Prod.fst).Pairwise (· < ·)) (path : String) (lineOf : String → Nat) :
    StrictReading kinds path fields fun strict =>
      ofFile strict path lineOf (fields.map fun field => (field.1, entry field.2)) := by
  have hstrays := unknownKeys_eq_strayKeys h hnames
  have hstrict := ofFile_strict path lineOf (fields.map fun field => (field.1, entry field.2))
  rw [hstrays] at hstrict
  constructor
  case fields_sorted => exact hfields
  case names_sorted => exact hnames
  case refused =>
    intro hne
    rw [if_neg hne] at hstrict
    refine ⟨_, hstrict, ?_⟩
    rw [List.map_map]
    exact List.map_id _
  case lenient =>
    intro hnil
    rwa [if_pos hnil] at hstrict
  case ok_of_strict =>
    intro schema hok
    rw [hstrict] at hok
    split at hok
    · exact hok
    · cases hok
  case own_names =>
    intro key hkey
    obtain ⟨field, hfield, hkey⟩ := List.mem_flatMap.1 hkey
    obtain ⟨name, hname, rfl⟩ := List.mem_map.1 hkey
    cases hmembers : kinds.members? field.2 with
    | none =>
      rw [hmembers] at hname
      cases hname
    | some members =>
      rw [hmembers] at hname
      obtain ⟨member, hmember, rfl⟩ := List.mem_map.1 hname
      rw [List.mem_filter, Bool.not_eq_true'] at hmember
      exact ⟨field, hfield, members, hmembers, member,
        (List.takeWhile_sublist _).subset hmember.1, hmember.2, rfl⟩

/-- Schema files of both formats are read strictly or not with their strays as the only
difference. -/
theorem strictReading_of_text (text path : String) :
    (∀ fields, (Toml.parse .initial text.toList >>= Toml.canonicalText?) = some fields →
      StrictReading .toml path fields (ofToml text path)) ∧
    (∀ fields, Json.parseObject text.toList = .ok fields →
      StrictReading .json path fields (ofJson text path)) := by
  constructor
  · intro fields hparse
    obtain ⟨written, -, hcanonical⟩ := Option.bind_eq_some_iff.1 hparse
    obtain ⟨hfields, htables⟩ := Toml.sorted_of_canonicalText? hcanonical
    have hnames : ∀ field ∈ fields, ∀ members, ValueKinds.toml.members? field.2 = some members →
        (members.map Prod.fst).Pairwise (· < ·) := by
      rintro ⟨name, value⟩ hfield members hmembers
      cases value <;> cases hmembers
      exact htables _ hfield members rfl
    have hread : ofToml text path = fun strict => ofFile strict path (KeyLine.inTables text)
        (fields.map fun field => (field.1, field.2.fileEntry)) := by
      funext strict
      rw [ofToml, hparse]
    rw [hread]
    exact strictReading_ofFile ValueKinds.describes_toml hfields hnames path _
  · intro fields hparse
    cases Json.wellKeyed_of_parseObject hparse with
    | object hfields hinner =>
      have hnames : ∀ field ∈ fields, ∀ members, ValueKinds.json.members? field.2 = some members →
          (members.map Prod.fst).Pairwise (· < ·) := by
        rintro ⟨name, document⟩ hfield members hmembers
        have hkeyed : document.WellKeyed := hinner _ hfield
        cases document <;> cases hmembers
        cases hkeyed with
        | object hsorted _ => exact hsorted
      have hread : ofJson text path = fun strict => ofFile strict path (KeyLine.inObjects text)
          (fields.map fun field => (field.1, field.2.fileEntry)) := by
        funext strict
        rw [ofJson, hparse]
      rw [hread]
      exact strictReading_ofFile ValueKinds.describes_json hfields hnames path _

theorem strictReading_of_text_mixed :
    let toml := "B = 1\n[A]\nmni = 2\none_of = [1]\noneOf = [1]\nzzz = 3\ntype = \"int\"\n"
    let json := "\x7b\"A\": \x7b\"aaa\": \x7b\"bbb\": 1\x7d, \"oneOf\": null, \"type\": 5, " ++
      "\"zzz\": 1\x7d, \"B\": null\x7d"
    (∃ fields, (Toml.parse .initial toml.toList >>= Toml.canonicalText?) = some fields ∧
      ∃ keys, ofToml toml "s.toml" true = .error (.unknownSchemaKeys "s.toml" keys) ∧
        keys.map UnknownKey.key = ["A.mni"]) ∧
    ∃ fields, Json.parseObject json.toList = .ok fields ∧
      ∃ keys, ofJson json "s.json" true = .error (.unknownSchemaKeys "s.json" keys) ∧
        keys.map UnknownKey.key = ["A.aaa"] := by
  intro toml json
  have htoml : ((Toml.parse .initial toml.toList >>= Toml.canonicalText?).map
      ValueKinds.toml.strayKeys) = some ["A.mni"] := by decide +kernel
  have hjson : (Json.parseObject json.toList).toOption.map ValueKinds.json.strayKeys =
      some ["A.aaa"] := by decide +kernel
  constructor
  · obtain ⟨fields, hparse, hstrays⟩ := Option.map_eq_some_iff.1 htoml
    obtain ⟨keys, hread, hkeys⟩ := ((strictReading_of_text toml "s.toml").1 fields hparse).refused
      (by rw [hstrays]; decide)
    exact ⟨fields, hparse, keys, hread, hkeys.trans hstrays⟩
  · cases hparse : Json.parseObject json.toList with
    | error fault =>
      rw [hparse] at hjson
      cases hjson
    | ok fields =>
      rw [hparse] at hjson
      have hstrays : ValueKinds.json.strayKeys fields = ["A.aaa"] := Option.some.inj hjson
      obtain ⟨keys, hread, hkeys⟩ := ((strictReading_of_text json "s.json").2 fields hparse).refused
        (by rw [hstrays]; decide)
      exact ⟨fields, rfl, keys, hread, hkeys.trans hstrays⟩

def datesApart : ValueKinds Toml.Value where
  isText
    | .string _ => true
    | _ => false
  isList := ValueKinds.toml.isList
  isNumber := ValueKinds.toml.isNumber
  members? := ValueKinds.toml.members?

/-- A date as a type does not end the reading of a rule, as it is read as its text: names behind it
are strays. -/
theorem not_strictReading_datesApart :
    let text := "[F]\ntype = 1979-05-27\nzzz = 1\n"
    ∃ fields, (Toml.parse .initial text.toList >>= Toml.canonicalText?) = some fields ∧
      ¬ StrictReading datesApart "s.toml" fields (ofToml text "s.toml") := by
  intro text
  have hstrays : ((Toml.parse .initial text.toList >>= Toml.canonicalText?).map
      datesApart.strayKeys) = some [] := by decide +kernel
  have hstrict : (ofToml text "s.toml" true).isOk = false := by decide +kernel
  have hlenient : (ofToml text "s.toml" false).isOk = true := by decide +kernel
  obtain ⟨fields, hparse, hnil⟩ := Option.map_eq_some_iff.1 hstrays
  refine ⟨fields, hparse, fun hreading => ?_⟩
  rw [hreading.lenient hnil, hlenient] at hstrict
  cases hstrict

end Schema

end TypedEnv
