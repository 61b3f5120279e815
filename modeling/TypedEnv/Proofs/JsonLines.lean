import Mathlib.Data.List.Pairwise
import TypedEnv.Assignment
import TypedEnv.Proofs.JsonContinuation
import TypedEnv.Proofs.KeyLines

/-!
The lines that a strict reading of a JSON schema reports.  A layout is the text of a schema with the
names of its fields and of the members of their rules in sight.  A key of a field without a point
stands on the line that is reported for it, if its quoted name and that of its field stand nowhere
but as names.  A point in the name of the field misleads the search, which parts the key at the
first point.
-/

namespace TypedEnv.Json

open TypedEnv.Text TypedEnv.KeyLine

/-- A member of an object as it is written: blanks, the name in quotes, blanks, a colon and the
value. -/
structure MemberLayout (α : Type) where
  before : List Char
  name : String
  between : List Char
  value : α

structure ObjectLayout (α : Type) where
  before : List Char
  members : List (MemberLayout α)
  closing : List Char
  after : List Char

inductive FieldLayout where
  | rule (object : ObjectLayout (List Char))
  | other (text : List Char)

abbrev SchemaLayout := ObjectLayout FieldLayout

section Texts

variable {α : Type} (write : α → List Char)

def MemberLayout.tail (member : MemberLayout α) : List Char :=
  member.between ++ ':' :: write member.value

def MemberLayout.body (member : MemberLayout α) : List Char :=
  inQuotes member.name.toList ++ member.tail write

def MemberLayout.text (member : MemberLayout α) : List Char :=
  member.before ++ member.body write

def ObjectLayout.text (object : ObjectLayout α) : List Char :=
  object.before ++ '\x7b' :: ([','].intercalate (object.members.map (MemberLayout.text write)) ++
    object.closing ++ '\x7d' :: object.after)

def frontsFrom (front : List Char) : List (MemberLayout α) → List (List Char × MemberLayout α)
  | [] => []
  | member :: members =>
    (front ++ member.before, member) :: frontsFrom (front ++ member.text write ++ [',']) members

def ObjectLayout.fronts (front : List Char) (object : ObjectLayout α) :
    List (List Char × MemberLayout α) :=
  frontsFrom write (front ++ object.before ++ ['\x7b']) object.members

end Texts

def FieldLayout.text : FieldLayout → List Char
  | rule object => object.text id
  | other text => text

/-- A member of a rule: the name of its field, its own, and the text in front of that. -/
structure Place where
  field : String
  name : String
  front : List Char
  deriving DecidableEq

def Place.line (place : Place) : Nat := place.front.count '\n' + 1

def Place.key (place : Place) : String := place.field ++ "." ++ place.name

namespace SchemaLayout

def text (layout : SchemaLayout) : List Char := ObjectLayout.text FieldLayout.text layout

def fields (layout : SchemaLayout) : List (List Char × MemberLayout FieldLayout) :=
  layout.fronts FieldLayout.text []

def placesIn (front : List Char) (field : MemberLayout FieldLayout) : List Place :=
  match field.value with
  | .rule object =>
    (object.fronts id (front ++ inQuotes field.name.toList ++ field.between ++ [':'])).map
      fun member => ⟨field.name, member.2.name, member.1⟩
  | .other _ => []

def places (layout : SchemaLayout) : List Place :=
  layout.fields.flatMap fun field => placesIn field.1 field.2

end SchemaLayout

def IsPlain (name : String) : Prop := ∀ c ∈ name.toList, c ≠ '"' ∧ c ≠ '\\' ∧ 0x20 ≤ c.toNat

def AllBlank (gap : List Char) : Prop := ∀ c ∈ gap, isSpace c = true

structure ObjectLayout.WellFormed {α : Type} (P : α → Prop) (object : ObjectLayout α) : Prop where
  blank : AllBlank object.before ∧ AllBlank object.closing ∧ AllBlank object.after
  gaps : ∀ member ∈ object.members, AllBlank member.before ∧ AllBlank member.between
  plain : ∀ member ∈ object.members, IsPlain member.name
  nodup : (object.members.map MemberLayout.name).Nodup
  values : ∀ member ∈ object.members, P member.value

instance {name : String} : Decidable (IsPlain name) := List.decidableBAll _ name.toList

instance {gap : List Char} : Decidable (AllBlank gap) := List.decidableBAll _ gap

theorem ObjectLayout.WellFormed.imp {α : Type} {P Q : α → Prop} {object : ObjectLayout α}
    (h : object.WellFormed P) (himp : ∀ value, P value → Q value) : object.WellFormed Q :=
  { h with values := fun member hmember => himp _ (h.values member hmember) }

def valueOf (text : List Char) : Document :=
  match parse text with
  | .ok document => document
  | .error _ => .null

def isObject : Document → Bool
  | .object _ => true
  | _ => false

def FieldLayout.WellFormed : FieldLayout → Prop
  | rule object => object.WellFormed fun text => (parse text).isOk = true
  | other text => (parse text).isOk = true ∧ isObject (valueOf text) = false

instance {α : Type} {P : α → Prop} [DecidablePred P] {object : ObjectLayout α} :
    Decidable (object.WellFormed P) :=
  decidable_of_iff ((AllBlank object.before ∧ AllBlank object.closing ∧ AllBlank object.after) ∧
      (∀ member ∈ object.members, AllBlank member.before ∧ AllBlank member.between) ∧
      (∀ member ∈ object.members, IsPlain member.name) ∧
      (object.members.map MemberLayout.name).Nodup ∧ ∀ member ∈ object.members, P member.value)
    ⟨fun ⟨blank, gaps, plain, nodup, values⟩ => ⟨blank, gaps, plain, nodup, values⟩,
      fun h => ⟨h.blank, h.gaps, h.plain, h.nodup, h.values⟩⟩

instance : DecidablePred FieldLayout.WellFormed
  | .rule object => inferInstanceAs (Decidable (object.WellFormed _))
  | .other _ => inferInstanceAs (Decidable (_ ∧ _))

def FieldLayout.document : FieldLayout → Document
  | rule object => .ofMembers (object.members.map fun member => (member.name, valueOf member.value))
  | other text => valueOf text

theorem parse_valueOf {text : List Char} (h : (parse text).isOk = true) :
    parse text = .ok (valueOf text) := by
  rw [valueOf]
  cases hparse : parse text with
  | error fault =>
    rw [hparse] at h
    cases h
  | ok document => rfl

section Reading

variable {α : Type} {write : α → List Char} {document : α → Document} {levels : Nat}
  {rest : List Char}

def moreText (write : α → List Char) (members : List (MemberLayout α)) : List Char :=
  members.flatMap fun member => ',' :: member.text write

theorem intercalate_members (member : MemberLayout α) (members : List (MemberLayout α)) :
    [','].intercalate ((member :: members).map (MemberLayout.text write)) =
      member.text write ++ moreText write members := by
  induction members generalizing member with
  | nil => simp [moreText]
  | cons next members ih =>
    have hne : (next :: members).map (MemberLayout.text write) ≠ [] := List.cons_ne_nil _ _
    rw [List.map_cons, List.intercalate_cons_of_ne_nil hne, ih]
    simp [moreText]

theorem skipSpace_gap {gap : List Char} {c : Char} (hgap : AllBlank gap) (hc : isSpace c = false) :
    skipSpace (gap ++ c :: rest) = c :: rest := by
  rw [skipSpace_of_forall hgap, skipSpace_cons hc]

theorem endsNumeral_gap {gap : List Char} (hgap : AllBlank gap) (hrest : EndsNumeral rest) :
    EndsNumeral (gap ++ rest) := by
  cases gap with
  | nil => exact hrest
  | cons c gap => exact endsNumeral_cons (Or.inl (hgap c List.mem_cons_self))

structure MemberLayout.ReadsAs (write : α → List Char) (document : α → Document) (levels : Nat)
    (member : MemberLayout α) : Prop where
  gaps : AllBlank member.before ∧ AllBlank member.between
  plain : IsPlain member.name
  value : Reads levels (write member.value) (document member.value)

theorem MemberLayout.ReadsAs.takes {member : MemberLayout α}
    (h : member.ReadsAs write document levels) (hrest : EndsNumeral rest) :
    ∃ tail gap, member.body write ++ rest = '"' :: tail ∧ AllBlank gap ∧
      Takes (Json.member (Json.value levels) tail) (member.name, document member.value)
        (gap ++ rest) := by
  obtain ⟨gap, hgap, hvalue⟩ := h.value
  refine ⟨member.name.toList ++ '"' :: (member.between ++ ':' :: (write member.value ++ rest)), gap,
    by simp [MemberLayout.body, MemberLayout.tail, inQuotes], hgap, ?_⟩
  have hmember := takes_member (takes_stringBody h.plain)
    (skipSpace_gap h.gaps.2 (by decide)) (hvalue rest hrest)
  rwa [String.ofList_toList] at hmember

theorem endsNumeral_moreText (write : α → List Char) (members : List (MemberLayout α))
    {closing : List Char} (hclosing : AllBlank closing) (rest : List Char) :
    EndsNumeral (moreText write members ++ (closing ++ '\x7d' :: rest)) := by
  cases members with
  | nil =>
    rw [moreText, List.flatMap_nil, List.nil_append]
    exact endsNumeral_gap hclosing (endsNumeral_cons (by simp))
  | cons next members => exact endsNumeral_cons (by simp)

theorem takes_moreText {members : List (MemberLayout α)} {gap closing : List Char}
    (h : ∀ member ∈ members, member.ReadsAs write document levels) (hgap : AllBlank gap)
    (hclosing : AllBlank closing) :
    Takes (Json.members (value levels) false
        (gap ++ (moreText write members ++ (closing ++ '\x7d' :: rest))))
      (members.map fun member => (member.name, document member.value)) rest := by
  induction members generalizing gap with
  | nil =>
    apply takes_members_end
    rw [skipSpace_of_forall hgap]
    exact skipSpace_gap hclosing (by decide)
  | cons member members ih =>
    rw [List.forall_mem_cons] at h
    obtain ⟨tail, behind, hbody, hbehind, htakes⟩ :=
      h.1.takes (endsNumeral_moreText write members hclosing rest)
    have hmore : moreText write (member :: members) ++ (closing ++ '\x7d' :: rest) =
        ',' :: (member.before ++ '"' :: tail) := by
      rw [← hbody]
      simp [moreText, MemberLayout.text]
    rw [hmore]
    exact takes_members_next (skipSpace_gap hgap (by decide))
      (skipSpace_gap h.1.gaps.1 (by decide)) htakes (ih h.2 hbehind)

theorem reads_layout {object : ObjectLayout α}
    (h : object.WellFormed fun value => Reads (levels + 1) (write value) (document value)) :
    Reads (levels + 2) (object.text write)
      (.ofMembers (object.members.map fun member => (member.name, document member.value))) := by
  have hmembers : ∀ member ∈ object.members, member.ReadsAs write document (levels + 1) :=
    fun member hmember => ⟨h.gaps member hmember, h.plain member hmember, h.values member hmember⟩
  obtain ⟨hbefore, hclosing, hafter⟩ := h.blank
  refine ⟨object.after, hafter, fun rest _ => ?_⟩
  let inner := [','].intercalate (object.members.map (MemberLayout.text write)) ++
    (object.closing ++ '\x7d' :: (object.after ++ rest))
  have hskip : skipSpace (object.text write ++ rest) = '\x7b' :: inner := by
    have hsplit : object.text write ++ rest = object.before ++ '\x7b' :: inner := by
      simp [ObjectLayout.text, inner]
    rw [hsplit]
    exact skipSpace_gap hbefore (by decide)
  refine takes_value_object hskip ?_
  cases hlist : object.members with
  | nil =>
    apply takes_members_end
    simp only [inner, hlist]
    exact skipSpace_gap hclosing (by decide)
  | cons member members =>
    rw [hlist, List.forall_mem_cons] at hmembers
    obtain ⟨tail, behind, hbody, hbehind, htakes⟩ :=
      hmembers.1.takes (endsNumeral_moreText write members hclosing (object.after ++ rest))
    have hinner : inner = member.before ++ '"' :: tail := by
      simp only [inner, hlist, intercalate_members]
      rw [← hbody]
      simp [MemberLayout.text]
    rw [hinner]
    exact takes_members_first (skipSpace_gap hmembers.1.gaps.1 (by decide)) htakes
      (takes_moreText hmembers.2 hbehind hclosing)

end Reading

theorem FieldLayout.reads {field : FieldLayout} (h : field.WellFormed) :
    Reads (room + 2) field.text field.document := by
  cases field with
  | rule object =>
    exact reads_layout (ObjectLayout.WellFormed.imp h fun _ htext =>
      reads_of_parse (parse_valueOf htext) (Nat.le_succ room))
  | other text => exact reads_of_parse (parse_valueOf h.1) (by omega)

def SchemaLayout.document (layout : SchemaLayout) : Document :=
  .ofMembers (layout.members.map fun field => (field.name, field.value.document))

theorem SchemaLayout.fields_of_parseObject {layout : SchemaLayout}
    (h : layout.WellFormed FieldLayout.WellFormed) {fields : List (String × Document)}
    (hparse : parseObject layout.text = .ok fields) : .object fields = layout.document := by
  have hlayout : Reads (room + 3) layout.text layout.document :=
    reads_layout (h.imp fun _ => FieldLayout.reads)
  have hread := reads_of_parse (parse_of_parseObject hparse) (Nat.le_add_right room 3)
  exact hread.unique hlayout

section Fronts

variable {α : Type} {write : α → List Char} {front rest : List Char}
  {members : List (MemberLayout α)} {first second : List Char × MemberLayout α}

theorem eq_of_inQuotes {name other : List Char} {after : List Char} (hname : '"' ∉ name)
    (hother : '"' ∉ other) (h : inQuotes name ++ rest = inQuotes other ++ after) :
    name = other := by
  have htake {word tail : List Char} (hword : '"' ∉ word) :
      (word ++ '"' :: tail).takeWhile (· != '"') = word := by
    refine takeWhile_append_of_head (fun c hc => ?_) (by simp)
    rw [bne_iff_ne]
    rintro rfl
    exact hword hc
  simp only [inQuotes, List.cons_append, List.append_assoc, List.nil_append,
    List.cons.injEq, true_and] at h
  rw [← @htake name rest hname, h, htake hother]

theorem prefix_of_mem_frontsFrom (h : first ∈ frontsFrom write front members) :
    front <+: first.1 := by
  induction members generalizing front with
  | nil => cases h
  | cons member members ih =>
    rw [frontsFrom] at h
    rcases List.mem_cons.1 h with rfl | hlater
    · exact List.prefix_append _ _
    · refine List.IsPrefix.trans ?_ (ih hlater)
      rw [List.append_assoc]
      exact List.prefix_append _ _

theorem map_snd_frontsFrom : (frontsFrom write front members).map Prod.snd = members := by
  induction members generalizing front with
  | nil => rfl
  | cons member members ih => rw [frontsFrom, List.map_cons, ih]

def Apart (write : α → List Char) (first second : List Char × MemberLayout α) : Prop :=
  first.1.length + (first.2.body write).length < second.1.length ∨
    second.1.length + (second.2.body write).length < first.1.length

instance : Std.Symm (Apart write) := ⟨fun _ _ h => h.symm⟩

theorem pairwise_apart : (frontsFrom write front members).Pairwise (Apart write) := by
  induction members generalizing front with
  | nil => exact .nil
  | cons member members ih =>
    refine .cons (fun later hlater => Or.inl ?_) ih
    have hlength := (prefix_of_mem_frontsFrom hlater).length_le
    simp only [MemberLayout.text, List.length_append, List.length_singleton] at hlength ⊢
    omega

theorem exists_of_mem_frontsFrom (h : first ∈ frontsFrom write front members) :
    ∃ rest, front ++ [','].intercalate (members.map (MemberLayout.text write)) =
      first.1 ++ first.2.body write ++ rest := by
  induction members generalizing front with
  | nil => cases h
  | cons member members ih =>
    rw [intercalate_members]
    rw [frontsFrom] at h
    rcases List.mem_cons.1 h with rfl | hlater
    · exact ⟨moreText write members, by simp [MemberLayout.text]⟩
    · obtain ⟨rest, hrest⟩ := ih hlater
      cases members with
      | nil => cases hlater
      | cons next members =>
        refine ⟨rest, ?_⟩
        rw [← hrest, intercalate_members]
        simp [moreText]

theorem mem_of_mem_fronts {object : ObjectLayout α} (h : first ∈ object.fronts write front) :
    first.2 ∈ object.members := by
  have hmembers : (object.fronts write front).map Prod.snd = object.members := map_snd_frontsFrom
  rw [← hmembers]
  exact List.mem_map_of_mem h

theorem exists_mem_fronts {object : ObjectLayout α} {member : MemberLayout α}
    (h : member ∈ object.members) (write : α → List Char) (front : List Char) :
    ∃ start, (start, member) ∈ object.fronts write front := by
  have hmembers : (object.fronts write front).map Prod.snd = object.members := map_snd_frontsFrom
  rw [← hmembers] at h
  obtain ⟨⟨start, _⟩, hmem, rfl⟩ := List.mem_map.1 h
  exact ⟨start, hmem⟩

theorem eq_of_mem_frontsFrom (hnodup : (members.map MemberLayout.name).Nodup)
    (hfirst : first ∈ frontsFrom write front members)
    (hsecond : second ∈ frontsFrom write front members)
    (hname : first.2.name = second.2.name) : first = second := by
  have hnames : ((frontsFrom write front members).map fun member => member.2.name).Nodup := by
    have hmembers : (frontsFrom write front members).map Prod.snd = members := map_snd_frontsFrom
    rw [← hmembers, List.map_map] at hnodup
    exact hnodup
  exact List.inj_on_of_nodup_map hnames hfirst hsecond hname

theorem exists_of_mem_fronts {object : ObjectLayout α} (h : first ∈ object.fronts write front) :
    ∃ rest, front ++ object.text write = first.1 ++ first.2.body write ++ rest := by
  obtain ⟨rest, hrest⟩ := exists_of_mem_frontsFrom h
  refine ⟨rest ++ object.closing ++ '\x7d' :: object.after, ?_⟩
  rw [← List.append_assoc, ← List.append_assoc, ← hrest]
  simp [ObjectLayout.text]

end Fronts

namespace SchemaLayout

variable {layout : SchemaLayout} {field : List Char × MemberLayout FieldLayout} {place : Place}

theorem exists_of_mem_fields (h : field ∈ layout.fields) :
    ∃ rest, layout.text = field.1 ++ field.2.body FieldLayout.text ++ rest :=
  exists_of_mem_fronts h

theorem exists_of_mem_placesIn (h : place ∈ placesIn field.1 field.2) :
    place.field = field.2.name ∧ ∃ between rest,
      place.front = field.1 ++ inQuotes field.2.name.toList ++ between ∧
      field.1 ++ field.2.body FieldLayout.text =
        place.front ++ inQuotes place.name.toList ++ rest := by
  unfold placesIn at h
  split at h
  · next object hobject =>
    obtain ⟨member, hmember, rfl⟩ := List.mem_map.1 h
    obtain ⟨rest, hrest⟩ := exists_of_mem_fronts hmember
    obtain ⟨between, hbetween⟩ := prefix_of_mem_frontsFrom hmember
    refine ⟨rfl, field.2.between ++ ':' :: (object.before ++ '\x7b' :: between),
      member.2.tail id ++ rest, ?_, ?_⟩
    · dsimp only
      rw [← hbetween]
      simp
    · have hbody : field.1 ++ field.2.body FieldLayout.text =
          field.1 ++ inQuotes field.2.name.toList ++ field.2.between ++ [':'] ++
            object.text id := by
        simp [MemberLayout.body, MemberLayout.tail, hobject, FieldLayout.text]
      rw [hbody, hrest]
      simp [MemberLayout.body]
  · cases h

theorem mem_places (h : place ∈ layout.places) :
    ∃ field ∈ layout.fields, place ∈ placesIn field.1 field.2 :=
  List.mem_flatMap.1 h

end SchemaLayout

/-- The piece stands nowhere in the text but behind these fronts. -/
def OnlyAt (piece text : List Char) (fronts : List (List Char)) : Prop :=
  ∀ front rest, text = front ++ piece ++ rest → front ∈ fronts

theorem onlyAt_iff {piece text : List Char} {fronts : List (List Char)} :
    OnlyAt piece text fronts ↔
      ∀ n < text.length + 1, piece <+: text.drop n → text.take n ∈ fronts := by
  constructor
  · rintro h n - ⟨rest, hrest⟩
    apply h (text.take n) rest
    rw [List.append_assoc, hrest, List.take_append_drop]
  · rintro h front rest rfl
    have hplace := h front.length (by simp only [List.length_append]; omega)
    rw [List.append_assoc, List.drop_left, List.take_left] at hplace
    exact hplace (List.prefix_append _ _)

instance {piece text : List Char} {fronts : List (List Char)} :
    Decidable (OnlyAt piece text fronts) := decidable_of_iff _ onlyAt_iff.symm

/-- The quoted name of the field stands in the text only as the name of a field, and that of the
member only as the name of a member of a rule. -/
structure SchemaLayout.Distinguishes (layout : SchemaLayout) (place : Place) : Prop where
  field : OnlyAt (inQuotes place.field.toList) layout.text (layout.fields.map Prod.fst)
  name : OnlyAt (inQuotes place.name.toList) layout.text (layout.places.map Place.front)

instance {layout : SchemaLayout} {place : Place} : Decidable (layout.Distinguishes place) :=
  decidable_of_iff (OnlyAt (inQuotes place.field.toList) layout.text
      (layout.fields.map Prod.fst) ∧
    OnlyAt (inQuotes place.name.toList) layout.text (layout.places.map Place.front))
    ⟨fun h => ⟨h.1, h.2⟩, fun h => ⟨h.field, h.name⟩⟩

theorem eq_of_places {text front rest after : List Char} {name other : String}
    (hname : IsPlain name) (hother : IsPlain other)
    (hplace : text = front ++ inQuotes name.toList ++ rest)
    (hsame : text = front ++ inQuotes other.toList ++ after) : name = other := by
  rw [hplace, List.append_assoc, List.append_assoc, List.append_cancel_left_eq] at hsame
  have hquote {word : String} (hword : IsPlain word) : '"' ∉ word.toList :=
    fun hmem => (hword _ hmem).1 rfl
  exact String.toList_inj.1 (eq_of_inQuotes (hquote hname) (hquote hother) hsame)

namespace SchemaLayout

variable {layout : SchemaLayout} {field : List Char × MemberLayout FieldLayout} {place : Place}

theorem isPlain_of_mem_placesIn (h : layout.WellFormed FieldLayout.WellFormed)
    (hfield : field ∈ layout.fields) (hplace : place ∈ placesIn field.1 field.2) :
    IsPlain place.name := by
  have hvalue := h.values field.2 (mem_of_mem_fronts hfield)
  unfold placesIn at hplace
  split at hplace
  · next object hobject =>
    obtain ⟨member, hmember, rfl⟩ := List.mem_map.1 hplace
    rw [hobject] at hvalue
    exact hvalue.plain member.2 (mem_of_mem_fronts hmember)
  · cases hplace

theorem eq_of_mem_placesIn (h : layout.WellFormed FieldLayout.WellFormed)
    (hfield : field ∈ layout.fields) {other : Place} (hplace : place ∈ placesIn field.1 field.2)
    (hother : other ∈ placesIn field.1 field.2) (hname : place.name = other.name) :
    place = other := by
  have hvalue := h.values field.2 (mem_of_mem_fronts hfield)
  unfold placesIn at hplace hother
  split at hplace
  · next object hobject =>
    rw [hobject] at hother hvalue
    obtain ⟨first, hfirst, rfl⟩ := List.mem_map.1 hplace
    obtain ⟨second, hsecond, rfl⟩ := List.mem_map.1 hother
    rw [eq_of_mem_frontsFrom hvalue.nodup hfirst hsecond hname]
  · cases hplace

theorem length_le_of_later (h : layout.WellFormed FieldLayout.WellFormed)
    (hfield : field ∈ layout.fields) (hplace : place ∈ placesIn field.1 field.2) {other : Place}
    (hother : other ∈ layout.places) (hname : place.name = other.name)
    (hlater : field.1.length < other.front.length) : place.front.length ≤ other.front.length := by
  obtain ⟨otherField, hotherField, hotherIn⟩ := mem_places hother
  by_cases hsame : field = otherField
  · subst hsame
    rw [eq_of_mem_placesIn h hfield hplace hotherIn hname]
  · obtain ⟨-, _, _, -, hbody⟩ := exists_of_mem_placesIn hplace
    obtain ⟨-, _, _, hotherFront, hotherBody⟩ := exists_of_mem_placesIn hotherIn
    have hlength := congrArg List.length hbody
    have hotherStart := congrArg List.length hotherFront
    have hotherLength := congrArg List.length hotherBody
    simp only [List.length_append] at hlength hotherStart hotherLength
    rcases pairwise_apart.forall hfield hotherField hsame with hbefore | hbehind
    · omega
    · omega

theorem inObjects_of_place (h : layout.WellFormed FieldLayout.WellFormed)
    (hplace : place ∈ layout.places) (hpoint : '.' ∉ place.field.toList)
    (hdistinct : layout.Distinguishes place) :
    inObjects (String.ofList layout.text) place.key = place.line := by
  obtain ⟨field, hfield, hin⟩ := mem_places hplace
  obtain ⟨hfieldName, between, behind, hfront, hbody⟩ := exists_of_mem_placesIn hin
  obtain ⟨rest, htext⟩ := exists_of_mem_fields hfield
  have hplain := isPlain_of_mem_placesIn h hfield hin
  have hplainField : IsPlain field.2.name := h.plain field.2 (mem_of_mem_fronts hfield)
  obtain ⟨honlyField, honlyName⟩ := hdistinct
  rw [hfieldName] at hpoint honlyField
  -- The text is cut at the name of the field, and the rest of it at the name of the member.
  have hwhole : layout.text = place.front ++ inQuotes place.name.toList ++ (behind ++ rest) := by
    rw [htext, hbody]
    simp
  have hfirst : cutAt (inQuotes field.2.name.toList) layout.text =
      some (field.1, between ++ inQuotes place.name.toList ++ (behind ++ rest)) := by
    refine cutAt_of_leftmost (by rw [hwhole, hfront]; simp) fun front after hfound => ?_
    obtain ⟨other, hother, rfl⟩ := List.mem_map.1 (honlyField front after hfound)
    obtain ⟨later, hlater⟩ := exists_of_mem_fields hother
    rw [MemberLayout.body, List.append_assoc, List.append_assoc, ← List.append_assoc] at hlater
    have hsame :=
      eq_of_places hplainField (h.plain other.2 (mem_of_mem_fronts hother)) hfound hlater
    rw [eq_of_mem_frontsFrom h.nodup hfield hother hsame]
  have hsecond : cutAt (inQuotes place.name.toList)
      (between ++ inQuotes place.name.toList ++ (behind ++ rest)) =
        some (between, behind ++ rest) := by
    refine cutAt_of_leftmost rfl fun front after hfound => ?_
    have hagain : layout.text = field.1 ++ inQuotes field.2.name.toList ++ front ++
        inQuotes place.name.toList ++ after := by
      rw [hwhole, hfront, List.append_assoc _ between, List.append_assoc _ (between ++ _), hfound]
      simp
    obtain ⟨other, hother, hotherFront⟩ := List.mem_map.1 (honlyName _ after hagain)
    have hlater : field.1.length < other.front.length := by
      rw [hotherFront]
      simp only [List.length_append, inQuotes, List.length_cons]
      omega
    obtain ⟨otherField, hotherField, hotherIn⟩ := mem_places hother
    have hname : place.name = other.name := by
      obtain ⟨-, _, otherRest, -, hotherBody⟩ := exists_of_mem_placesIn hotherIn
      obtain ⟨later, hotherText⟩ := exists_of_mem_fields hotherField
      rw [hotherBody, List.append_assoc] at hotherText
      rw [← hotherFront] at hagain
      exact eq_of_places hplain (isPlain_of_mem_placesIn h hotherField hotherIn) hagain hotherText
    have hlengths := length_le_of_later h hfield hin hother hname hlater
    rw [hotherFront, hfront] at hlengths
    simp only [List.length_append] at hlengths
    omega
  have hcontrol {name : String} (hname : IsPlain name) : ∀ c ∈ name.toList, 0x20 ≤ c.toNat :=
    fun c hc => (hname c hc).2.2
  have hnone : (inQuotes field.2.name.toList).count '\n' = 0 :=
    List.count_eq_zero_of_not_mem (not_mem_inQuotes (hcontrol hplainField) (by decide))
  have hline : place.line = (field.1 ++ between).count '\n' + 1 := by
    rw [Place.line, hfront]
    simp [hnone]
  rw [Place.key, hfieldName, inObjects_eq (parts?_append hpoint _) (hcontrol hplainField)
    (hcontrol hplain), String.toList_ofList, hfirst]
  dsimp only
  rw [hsecond, hline]

/-- The search for a field with a point goes by the text in front of its first point. -/
theorem inObjects_of_pointed (h : layout.WellFormed FieldLayout.WellFormed)
    (hplace : place ∈ layout.places) {front back : String}
    (hfield : place.field = front ++ "." ++ back) (hpoint : '.' ∉ front.toList)
    (habsent : ¬ inQuotes (back ++ "." ++ place.name).toList <:+: layout.text) :
    inObjects (String.ofList layout.text) place.key = 0 := by
  obtain ⟨field, hmem, hin⟩ := mem_places hplace
  obtain ⟨hname, -⟩ := exists_of_mem_placesIn hin
  have hplain := isPlain_of_mem_placesIn h hmem hin
  have hplainField : IsPlain place.field := hname ▸ h.plain field.2 (mem_of_mem_fronts hmem)
  have hkey : place.key = front ++ "." ++ (back ++ "." ++ place.name) := by
    simp [Place.key, hfield, String.append_assoc]
  have hfront : ∀ c ∈ front.toList, 0x20 ≤ c.toNat := by
    intro c hc
    exact (hplainField c (by simp [hfield, hc])).2.2
  have hback : ∀ c ∈ (back ++ "." ++ place.name).toList, 0x20 ≤ c.toNat := by
    intro c hc
    simp only [String.toList_append, List.mem_append] at hc
    rcases hc with (hc | hc) | hc
    · exact (hplainField c (by simp [hfield, hc])).2.2
    · rw [List.mem_singleton.1 hc]
      decide
    · exact (hplain c hc).2.2
  rw [hkey, inObjects_eq (parts?_append hpoint _) hfront hback, String.toList_ofList]
  cases hcut : cutAt (inQuotes front.toList) layout.text with
  | none => rfl
  | some parts =>
    have hnone : cutAt (inQuotes (back ++ "." ++ place.name).toList) parts.2 = none := by
      apply cutAt_of_not_infix
      rintro ⟨before, after, hinfix⟩
      apply habsent
      rw [eq_append_of_cutAt hcut, ← hinfix]
      exact ⟨parts.1 ++ inQuotes front.toList ++ before, after, by simp⟩
    dsimp only
    rw [hnone]

theorem exists_mem_placesIn {field : MemberLayout FieldLayout} (h : field.value.WellFormed)
    {members : List (String × Document)} (hobject : field.value.document = .object members)
    {name : String} (hname : name ∈ members.map Prod.fst) (start : List Char) :
    ∃ place ∈ placesIn start field, place.field = field.name ∧ place.name = name := by
  unfold placesIn
  cases hvalue : field.value with
  | rule object =>
    rw [hvalue, FieldLayout.document, Document.ofMembers, ← Dict.entries_ofList] at hobject
    cases hobject
    obtain ⟨member, hmember, rfl⟩ := List.mem_map.1 hname
    obtain ⟨written, hwritten, rfl⟩ := List.mem_map.1 (Dict.mem_of_mem_ofList hmember)
    obtain ⟨_, hstart⟩ := exists_mem_fronts hwritten id
      (start ++ inQuotes field.name.toList ++ field.between ++ [':'])
    exact ⟨_, List.mem_map_of_mem hstart, rfl, rfl⟩
  | other text =>
    rw [hvalue, FieldLayout.document] at hobject
    rw [hvalue, FieldLayout.WellFormed, hobject] at h
    cases h.2

/-- What is reported is a place in a rule under a name that no rule has. -/
theorem exists_place_of_reported (h : layout.WellFormed FieldLayout.WellFormed) {path : String}
    {keys : List UnknownKey}
    (hstrict : Schema.ofJson (String.ofList layout.text) path true =
      .error (.unknownSchemaKeys path keys)) {unknown : UnknownKey} (hunknown : unknown ∈ keys) :
    unknown.line = inObjects (String.ofList layout.text) unknown.key ∧
      ∃ place ∈ layout.places, unknown.key = place.key ∧ Draft.isKnown place.name = false := by
  rw [Schema.ofJson, String.toList_ofList] at hstrict
  split at hstrict
  · cases hstrict
  · next fields hparse =>
    obtain ⟨hline, field, members, name, hentry, hname, hstray, hkey⟩ :=
      Schema.reported_of_ofFile hstrict hunknown
    refine ⟨hline, ?_⟩
    obtain ⟨⟨own, document⟩, hmember, hsight⟩ := List.mem_map.1 hentry
    have hobject : ∃ written, document = .object written ∧
        members.map Prod.fst = written.map Prod.fst := by
      cases document <;> cases hsight
      exact ⟨_, rfl, by simp⟩
    obtain ⟨written, rfl, hnames⟩ := hobject
    cases hsight
    have hfields := fields_of_parseObject h hparse
    rw [SchemaLayout.document, Document.ofMembers, ← Dict.entries_ofList] at hfields
    cases hfields
    obtain ⟨field, hfield, heq⟩ := List.mem_map.1 (Dict.mem_of_mem_ofList hmember)
    obtain ⟨rfl, hdocument⟩ := Prod.mk.inj heq
    obtain ⟨start, hstart⟩ := exists_mem_fronts hfield FieldLayout.text []
    obtain ⟨place, hplace, hplaceField, rfl⟩ :=
      exists_mem_placesIn (h.values field hfield) hdocument (hnames ▸ hname) start
    refine ⟨place, List.mem_flatMap.2 ⟨_, hstart, hplace⟩, ?_, hstray⟩
    rw [hkey, Place.key, hplaceField]

/-- Each reported key is a member of a rule, and its line is that on which the member is written, if
the names of both stand quoted nowhere else and the field has no point in its name.  A point there
makes the search look for other names, and the line is zero where these are not found. -/
theorem line_of_reported (h : layout.WellFormed FieldLayout.WellFormed) {path : String}
    {keys : List UnknownKey}
    (hstrict : Schema.ofJson (String.ofList layout.text) path true =
      .error (.unknownSchemaKeys path keys)) :
    ∀ unknown ∈ keys,
      (∃ place ∈ layout.places, unknown.key = place.key ∧ Draft.isKnown place.name = false) ∧
      ∀ place ∈ layout.places, unknown.key = place.key →
        ('.' ∉ place.field.toList → layout.Distinguishes place → unknown.line = place.line) ∧
        ∀ front back, place.field = front ++ "." ++ back → '.' ∉ front.toList →
          ¬ inQuotes (back ++ "." ++ place.name).toList <:+: layout.text → unknown.line = 0 := by
  intro unknown hunknown
  obtain ⟨hline, hreported⟩ := exists_place_of_reported h hstrict hunknown
  refine ⟨hreported, fun place hplace hkey => ⟨fun hpoint hdistinct => ?_, ?_⟩⟩
  · rw [hline, hkey]
    exact inObjects_of_place h hplace hpoint hdistinct
  · intro front back hfield hpoint habsent
    rw [hline, hkey]
    exact inObjects_of_pointed h hplace hfield hpoint habsent

def printed {α : Type} (level : Nat) (name : String) (value : α) : MemberLayout α :=
  ⟨'\n' :: List.replicate (2 * level) ' ', name, [], value⟩

/-- Two rules with one unknown name and a field between them, printed with a line for each member.
The second of the rules belongs to a field with a point in its name. -/
def pointed : SchemaLayout :=
  ⟨[], [
    printed 1 "A" (.rule ⟨[' '], [printed 2 "type" " \"int\"".toList,
      printed 2 "mni" " \x7b\"x\": 1\x7d".toList], "\n  ".toList, []⟩),
    printed 1 "P" (.other " \"int\"".toList),
    printed 1 "B.C" (.rule ⟨[' '], [printed 2 "mni" " [2]".toList], "\n  ".toList, []⟩)],
    ['\n'], ['\n']⟩

theorem wellFormed_pointed : pointed.WellFormed FieldLayout.WellFormed := by
  decide +kernel

theorem ofJson_pointed : Schema.ofJson (String.ofList pointed.text) "s.json" true =
    .error (.unknownSchemaKeys "s.json" [⟨"A.mni", 4⟩, ⟨"B.C.mni", 0⟩]) := by
  with_unfolding_all rfl

theorem line_of_reported_pointed :
    pointed.WellFormed FieldLayout.WellFormed ∧
    Schema.ofJson (String.ofList pointed.text) "s.json" true =
      .error (.unknownSchemaKeys "s.json" [⟨"A.mni", 4⟩, ⟨"B.C.mni", 0⟩]) ∧
    ∃ place ∈ pointed.places, place.key = "A.mni" ∧ Draft.isKnown place.name = false ∧
      pointed.Distinguishes place ∧ place.line = 4 := by
  obtain ⟨⟨place, hplace, hkey, hstray⟩, hline⟩ :=
    line_of_reported wellFormed_pointed ofJson_pointed ⟨"A.mni", 4⟩ List.mem_cons_self
  have hdistinct : ∀ place ∈ pointed.places, place.key = "A.mni" →
      '.' ∉ place.field.toList ∧ pointed.Distinguishes place := by
    decide +kernel
  obtain ⟨hpoint, hplaceDistinct⟩ := hdistinct place hplace hkey.symm
  exact ⟨wellFormed_pointed, ofJson_pointed, place, hplace, hkey.symm, hstray, hplaceDistinct,
    ((hline place hplace hkey).1 hpoint hplaceDistinct).symm⟩

/-- The key of a field with a point is not found, though its names stand nowhere else and each
member has a line of its own. -/
theorem line_ne_of_reported_pointed :
    pointed.WellFormed FieldLayout.WellFormed ∧
    (∀ place ∈ pointed.places, place.field.toList.all Assignment.isKeyChar = true ∧
      pointed.Distinguishes place) ∧
    ∃ keys, Schema.ofJson (String.ofList pointed.text) "s.json" true =
        .error (.unknownSchemaKeys "s.json" keys) ∧
      ∃ unknown ∈ keys, ∃ place ∈ pointed.places, unknown.key = place.key ∧
        unknown.line = 0 ∧ place.line = 8 := by
  refine ⟨wellFormed_pointed, by decide +kernel, _, ofJson_pointed, ⟨"B.C.mni", 0⟩, by simp, ?_⟩
  decide +kernel

end SchemaLayout

end TypedEnv.Json
