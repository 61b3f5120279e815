import Mathlib.Data.List.Nodup
import TypedEnv.Proofs.TomlReading

/-!
The places of the keys in a layout of a TOML schema.  A key of a rule is written below the header of
its field, or in the braces of the field's entry above all headers.  No two lines of a layout that
is read write the same field, nor the same key of a field, and each name in the table of a field has
a place.
-/

namespace TypedEnv.Toml

open TypedEnv.Text

/-- A key in the table of a field, and the line that it is written on. -/
structure Place where
  field : String
  name : String
  line : Nat
  deriving DecidableEq

def Place.key (place : Place) : String := place.field ++ "." ++ place.name

def ValueLayout.keys : ValueLayout → List String
  | braces _ pairs => pairs.map (·.item.key)
  | plain _ => []

theorem Content.exists_of_isHeader {content : Content} (h : content.isHeader = true) :
    ∃ name, content = .header name := by
  unfold isHeader at h
  split at h
  · next name => exact ⟨name, rfl⟩
  · cases h

namespace LineLayout

def sectionAfter (line : LineLayout) (section_ : Option String) : Option String :=
  match line.item with
  | .header name => some name.item
  | _ => section_

def keys (line : LineLayout) (section_ : Option String) : List (String × String) :=
  match line.item, section_ with
  | .entry pair, none => pair.value.keys.map fun name => (pair.key, name)
  | .entry pair, some field => [(field, pair.key)]
  | _, _ => []

/-- What may be written once only: a field, or a key in the table of a field. -/
def mark? (line : LineLayout) (section_ : Option String) : Option (String × Option String) :=
  match line.item, section_ with
  | .nothing, _ => none
  | .header name, _ => some (name.item, none)
  | .entry pair, none => some (pair.key, none)
  | .entry pair, some field => some (field, some pair.key)

theorem sectionAfter_header {line : LineLayout} {name : Framed String}
    (hitem : line.item = .header name) (section_ : Option String) :
    line.sectionAfter section_ = some name.item := by
  rw [sectionAfter, hitem]

theorem sectionAfter_of_not_header {line : LineLayout} (h : line.item.isHeader = false)
    (section_ : Option String) : line.sectionAfter section_ = section_ := by
  rw [sectionAfter]
  split
  · next name hitem =>
    rw [hitem] at h
    cases h
  · rfl

theorem exists_entry_of_mem_keys {line : LineLayout} {section_ : Option String}
    {field name : String} (h : (field, name) ∈ line.keys section_) :
    ∃ pair, line.item = .entry pair ∧ (section_ = none ∧ pair.key = field ∧ name ∈ pair.value.keys ∨
      section_ = some field ∧ pair.key = name) := by
  unfold keys at h
  split at h
  · next pair hitem =>
    obtain ⟨own, hown, heq⟩ := List.mem_map.1 h
    cases heq
    exact ⟨pair, hitem, Or.inl ⟨rfl, rfl, hown⟩⟩
  · next pair header hitem =>
    cases List.mem_singleton.1 h
    exact ⟨pair, hitem, Or.inr ⟨rfl, rfl⟩⟩
  · cases h

end LineLayout

def placesFrom (section_ : Option String) (number : Nat) : List LineLayout → List Place
  | [] => []
  | line :: lines =>
    (line.keys section_).map (fun key => ⟨key.1, key.2, number⟩) ++
      placesFrom (line.sectionAfter section_) (number + 1) lines

def SchemaLayout.places (layout : SchemaLayout) : List Place := placesFrom none 1 layout.lines

def marksFrom (section_ : Option String) : List LineLayout → List (String × Option String)
  | [] => []
  | line :: lines => (line.mark? section_).toList ++ marksFrom (line.sectionAfter section_) lines

namespace Members

variable {key k : String} {node : Node} {members : Members}

theorem valueOf?_put (key k : String) (node : Node) (members : Members) :
    valueOf? k (put key node members) = if k = key then some node else valueOf? k members := by
  induction members with
  | nil => simp [put, valueOf?_cons, eq_comm]
  | cons member members ih =>
    obtain ⟨own, other⟩ := member
    rw [put]
    split
    · next h =>
      subst h
      by_cases hk : k = key
      · simp [valueOf?_cons, hk]
      · simp [valueOf?_cons, hk, Ne.symm hk]
    · next h =>
      rw [valueOf?_cons, valueOf?_cons, ih]
      by_cases hk : k = key
      · simp [hk, Ne.symm h]
      · simp [hk]

theorem mem_of_valueOf? (h : valueOf? key members = some node) : (key, node) ∈ members := by
  obtain ⟨member, hfind, rfl⟩ := Option.map_eq_some_iff.1 h
  have hkey : member.1 = key := by simpa using List.find?_some hfind
  rw [← hkey]
  exact List.mem_of_find?_eq_some hfind

theorem valueOf?_put_ne_none (h : valueOf? k members ≠ none) :
    valueOf? k (put key node members) ≠ none := by
  rw [valueOf?_put]
  split
  · simp
  · exact h

theorem valueOf?_put_of_free {other : Node} (hfree : valueOf? key members = none)
    (h : valueOf? k members = some other) : valueOf? k (put key node members) = some other := by
  rw [valueOf?_put, if_neg, h]
  rintro rfl
  rw [hfree] at h
  cases h

theorem mem_put {member : String × Node} (h : member ∈ put key node members) :
    member = (key, node) ∨ member ∈ members := by
  induction members with
  | nil => exact Or.inl (List.mem_singleton.1 h)
  | cons first members ih =>
    obtain ⟨own, other⟩ := first
    rw [put] at h
    split at h
    · rcases List.mem_cons.1 h with rfl | h
      · exact Or.inl rfl
      · exact Or.inr (List.mem_cons_of_mem _ h)
    · rcases List.mem_cons.1 h with rfl | h
      · exact Or.inr List.mem_cons_self
      · exact (ih h).imp_right (List.mem_cons_of_mem _)

theorem mem_keys_put {name : String} (h : name ∈ (put key node members).map Prod.fst) :
    name = key ∨ name ∈ members.map Prod.fst := by
  obtain ⟨member, hmember, rfl⟩ := List.mem_map.1 h
  rcases mem_put hmember with rfl | hmember
  · exact Or.inl rfl
  · exact Or.inr (List.mem_map_of_mem hmember)

theorem keys_membersToValues (members : Members) :
    (membersToValues members).map Prod.fst = members.map Prod.fst := by
  induction members with
  | nil => rfl
  | cons member members ih =>
    obtain ⟨key, node⟩ := member
    rw [membersToValues, List.map_cons, ih]
    rfl

end Members

def Node.Explicit (node : Node) : Prop :=
  (∃ value, node = .value value) ∨ ∃ inner, node = .table .header inner

def Members.Explicit (members : Members) : Prop :=
  ∀ key node, valueOf? key members = some node → node.Explicit

theorem Members.Explicit.put {members : Members} {node : Node} (h : members.Explicit)
    (hnode : node.Explicit) (key : String) : Explicit (Members.put key node members) := by
  intro other found hfound
  rw [valueOf?_put] at hfound
  split at hfound
  · cases hfound
    exact hnode
  · exact h other found hfound

/-- The lines so far: their last header is that of the section, and nothing but values and headers
wrote the members. -/
structure Draft.Below (section_ : Option String) (draft : Draft) : Prop where
  path : draft.path = section_.toList
  explicit : draft.members.Explicit
  current : ∀ field ∈ section_, ∃ inner, valueOf? field draft.members = some (.table .header inner)

theorem below_empty : Draft.Below none .empty where
  path := rfl
  explicit key node h := by cases h
  current field h := by cases h

/-- What a line makes of the lines so far. -/
inductive LineLayout.Adds (line : LineLayout) (section_ : Option String) (draft : Draft) :
    Draft → Prop
  | nothing : line.item = .nothing → Adds line section_ draft draft
  | header {name : Framed String} : line.item = .header name →
    valueOf? name.item draft.members = none →
    Adds line section_ draft
      ⟨Members.put name.item (.table .header []) draft.members, [name.item]⟩
  | field {pair : PairLayout ValueLayout} {value : Value} : line.item = .entry pair →
    section_ = none → pair.value.read? = some value → valueOf? pair.key draft.members = none →
    Adds line section_ draft ⟨Members.put pair.key (.value value) draft.members, draft.path⟩
  | member {pair : PairLayout ValueLayout} {value : Value} {field : String} {inner : Members} :
    line.item = .entry pair → section_ = some field →
    valueOf? field draft.members = some (.table .header inner) → valueOf? pair.key inner = none →
    Adds line section_ draft ⟨Members.put field
      (.table .header (Members.put pair.key (.value value) inner)) draft.members, draft.path⟩

section Steps

variable {line : LineLayout} {lines : List LineLayout} {section_ : Option String}
  {draft next final : Draft}

theorem exists_of_addValue {key : String} {value : Value} {members changed : Members}
    (h : Members.addValue true [] key value members = some changed) :
    valueOf? key members = none ∧ changed = Members.put key (.value value) members := by
  rw [Members.addValue] at h
  obtain ⟨⟨-, hfree⟩, heq⟩ := Option.ite_none_right_eq_some.1 h
  exact ⟨hfree, (Option.some.inj heq).symm⟩

theorem adds_of_add (hbelow : draft.Below section_) (h : line.add draft = some next) :
    line.Adds section_ draft next := by
  rw [LineLayout.add] at h
  cases hitem : line.item with
  | nothing =>
    rw [hitem] at h
    cases h
    exact .nothing hitem
  | header name =>
    rw [hitem] at h
    obtain ⟨members, hmembers, rfl⟩ := Option.map_eq_some_iff.1 h
    change Members.openTable name.item draft.members = some members at hmembers
    unfold Members.openTable at hmembers
    split at hmembers
    · next hfree =>
      cases hmembers
      exact .header hitem hfree
    · next inner himplied =>
      rcases hbelow.explicit _ _ himplied with ⟨value, heq⟩ | ⟨inner, heq⟩ <;> cases heq
    · cases hmembers
  | entry pair =>
    rw [hitem] at h
    obtain ⟨value, hvalue, h⟩ := Option.bind_eq_some_iff.1 h
    obtain ⟨members, hmembers, rfl⟩ := Option.map_eq_some_iff.1 h
    rw [hbelow.path] at hmembers
    cases section_ with
    | none =>
      obtain ⟨hfree, rfl⟩ := exists_of_addValue hmembers
      exact .field hitem rfl hvalue hfree
    | some field =>
      obtain ⟨inner, hinner⟩ := hbelow.current field rfl
      change Members.atPath _ [field] draft.members = some members at hmembers
      rw [Members.atPath, hinner] at hmembers
      obtain ⟨changed, hchanged, rfl⟩ := Option.map_eq_some_iff.1 hmembers
      obtain ⟨hfree, rfl⟩ := exists_of_addValue hchanged
      exact .member hitem rfl hinner hfree

def Draft.Holds (draft : Draft) : String × Option String → Prop
  | (field, none) => valueOf? field draft.members ≠ none
  | (field, some name) => ∃ inner, valueOf? field draft.members = some (.table .header inner) ∧
    valueOf? name inner ≠ none

theorem Draft.Holds.put {mark : String × Option String} {key : String} {node : Node}
    {path : List String} (h : draft.Holds mark) (hfree : valueOf? key draft.members = none) :
    Draft.Holds ⟨Members.put key node draft.members, path⟩ mark := by
  obtain ⟨field, _ | name⟩ := mark
  · exact Members.valueOf?_put_ne_none h
  · obtain ⟨inner, hinner, hname⟩ := h
    exact ⟨inner, Members.valueOf?_put_of_free hfree hinner, hname⟩

namespace LineLayout.Adds

theorem below (hbelow : draft.Below section_) (h : line.Adds section_ draft next) :
    next.Below (line.sectionAfter section_) := by
  cases h with
  | nothing hitem => simpa [sectionAfter, hitem] using hbelow
  | header hitem hfree =>
    rw [sectionAfter_header hitem]
    constructor
    case path => rfl
    case explicit => exact hbelow.explicit.put (Or.inr ⟨[], rfl⟩) _
    case current =>
      rintro field hfield
      cases hfield
      exact ⟨[], by simp [Members.valueOf?_put]⟩
  | field hitem hsection hread hfree =>
    simp only [sectionAfter, hitem]
    subst hsection
    constructor
    case path => exact hbelow.path
    case explicit => exact hbelow.explicit.put (Or.inl ⟨_, rfl⟩) _
    case current =>
      rintro field hfield
      cases hfield
  | member hitem hsection hinner hfree =>
    simp only [sectionAfter, hitem]
    subst hsection
    constructor
    case path => exact hbelow.path
    case explicit => exact hbelow.explicit.put (Or.inr ⟨_, rfl⟩) _
    case current =>
      rintro field hfield
      cases hfield
      exact ⟨_, by simp [Members.valueOf?_put]; rfl⟩

/-- What a line marks is marked by no line before it. -/
theorem not_holds (h : line.Adds section_ draft next) :
    ∀ mark ∈ line.mark? section_, ¬ draft.Holds mark := by
  rintro mark hmark
  cases h with
  | nothing hitem =>
    simp only [mark?, hitem, Option.mem_def] at hmark
    cases hmark
  | header hitem hfree =>
    simp only [mark?, hitem, Option.mem_def] at hmark
    cases hmark
    exact fun hholds => hholds hfree
  | field hitem hsection hread hfree =>
    simp only [mark?, hitem, hsection, Option.mem_def] at hmark
    cases hmark
    exact fun hholds => hholds hfree
  | member hitem hsection hinner hfree =>
    simp only [mark?, hitem, hsection, Option.mem_def] at hmark
    cases hmark
    rintro ⟨other, hother, hholds⟩
    rw [hinner] at hother
    cases hother
    exact hholds hfree

theorem holds_mark (h : line.Adds section_ draft next) :
    ∀ mark ∈ line.mark? section_, next.Holds mark := by
  rintro mark hmark
  cases h with
  | nothing hitem =>
    simp only [mark?, hitem, Option.mem_def] at hmark
    cases hmark
  | header hitem hfree =>
    simp only [mark?, hitem, Option.mem_def] at hmark
    cases hmark
    simp [Draft.Holds, Members.valueOf?_put]
  | field hitem hsection hread hfree =>
    simp only [mark?, hitem, hsection, Option.mem_def] at hmark
    cases hmark
    simp [Draft.Holds, Members.valueOf?_put]
  | member hitem hsection hinner hfree =>
    simp only [mark?, hitem, hsection, Option.mem_def] at hmark
    cases hmark
    simp [Draft.Holds, Members.valueOf?_put]

theorem holds (h : line.Adds section_ draft next) {mark : String × Option String}
    (hmark : draft.Holds mark) : next.Holds mark := by
  cases h with
  | nothing hitem => exact hmark
  | header hitem hfree => exact hmark.put hfree
  | field hitem hsection hread hfree => exact hmark.put hfree
  | member hitem hsection hinner hfree =>
    obtain ⟨field, _ | name⟩ := mark
    · exact Members.valueOf?_put_ne_none hmark
    · obtain ⟨own, hown, hname⟩ := hmark
      rw [Draft.Holds]
      dsimp only
      rw [Members.valueOf?_put]
      split
      · next heq =>
        rw [heq, hinner] at hown
        cases hown
        exact ⟨_, rfl, Members.valueOf?_put_ne_none hname⟩
      · exact ⟨own, hown, hname⟩

end LineLayout.Adds

theorem nodup_marksFrom (hbelow : draft.Below section_) (h : addAll draft lines = some final) :
    (marksFrom section_ lines).Nodup ∧ ∀ mark ∈ marksFrom section_ lines, ¬ draft.Holds mark := by
  induction lines generalizing section_ draft with
  | nil => simp [marksFrom]
  | cons line lines ih =>
    obtain ⟨next, hnext, hrest⟩ := Option.bind_eq_some_iff.1 h
    have hadds := adds_of_add hbelow hnext
    obtain ⟨hnodup, hfree⟩ := ih (hadds.below hbelow) hrest
    rw [marksFrom]
    constructor
    · apply List.Nodup.append ?_ hnodup
      · intro mark hmark hlater
        exact hfree mark hlater (hadds.holds_mark mark (Option.mem_toList.1 hmark))
      · cases line.mark? section_ <;> simp
    · intro mark hmark
      rcases List.mem_append.1 hmark with hmark | hmark
      · exact hadds.not_holds mark (Option.mem_toList.1 hmark)
      · exact fun hholds => hfree mark hmark (hadds.holds hholds)

def Draft.Has (draft : Draft) (field name : String) : Prop :=
  ∃ node members, (field, node) ∈ draft.members ∧ node.toValue = .table members ∧
    name ∈ members.map Prod.fst

theorem mem_keys_of_foldlM {pairs : List ((List String × String) × Value)}
    {members changed : Members} {name : String}
    (h : pairs.foldlM (fun members ((path, key), value) =>
      Members.addValue true path key value members) members = some changed)
    (hpaths : ∀ pair ∈ pairs, pair.1.1 = [])
    (hname : name ∈ changed.map Prod.fst) :
    name ∈ members.map Prod.fst ∨ name ∈ pairs.map (·.1.2) := by
  induction pairs generalizing members with
  | nil =>
    cases h
    exact Or.inl hname
  | cons pair pairs ih =>
    obtain ⟨⟨path, key⟩, value⟩ := pair
    rw [List.forall_mem_cons] at hpaths
    obtain rfl : path = [] := hpaths.1
    rw [List.foldlM_cons] at h
    obtain ⟨next, hnext, hrest⟩ := Option.bind_eq_some_iff.1 h
    obtain ⟨-, rfl⟩ := exists_of_addValue hnext
    rcases ih hrest hpaths.2 with hmember | hmember
    · rcases Members.mem_keys_put hmember with rfl | hmember
      · exact Or.inr List.mem_cons_self
      · exact Or.inl hmember
    · exact Or.inr (List.mem_cons_of_mem _ hmember)

theorem fst_of_mapM_pairOf? {pairs : List (Framed (PairLayout (List Char)))}
    {reads : List ((List String × String) × Value)} (h : pairs.mapM pairOf? = some reads) :
    reads.map Prod.fst = pairs.map fun pair => ([], pair.item.key) := by
  induction pairs generalizing reads with
  | nil =>
    cases h
    rfl
  | cons pair pairs ih =>
    rw [List.mapM_cons] at h
    obtain ⟨read, hread, h⟩ := Option.bind_eq_some_iff.1 h
    obtain ⟨others, hothers, h⟩ := Option.bind_eq_some_iff.1 h
    obtain ⟨value, -, rfl⟩ := Option.map_eq_some_iff.1 hread
    cases h
    rw [List.map_cons, List.map_cons, ih hothers]

theorem mem_keys_of_table {value : ValueLayout} {members : List (String × Value)} {name : String}
    (h : value.read? = some (.table members)) (hname : name ∈ members.map Prod.fst)
    (hroot : ∀ text, value = .plain text →
      (wholeValue? (innerLevels + 1) text).any isTable = false) :
    name ∈ value.keys := by
  cases value with
  | plain text =>
    have hplain := hroot text rfl
    change wholeValue? (innerLevels + 1) text = some (.table members) at h
    rw [h] at hplain
    cases hplain
  | braces gap pairs =>
    obtain ⟨reads, hreads, h⟩ := Option.bind_eq_some_iff.1 h
    obtain ⟨built, hbuilt, heq⟩ := Option.map_eq_some_iff.1 h
    cases heq
    rw [Members.keys_membersToValues] at hname
    have hfst := fst_of_mapM_pairOf? hreads
    have hpaths : ∀ read ∈ reads, read.1.1 = [] := by
      intro read hread
      have hmem : read.1 ∈ reads.map Prod.fst := List.mem_map_of_mem hread
      rw [hfst] at hmem
      obtain ⟨pair, -, heq⟩ := List.mem_map.1 hmem
      rw [← heq]
    have hnames : reads.map (·.1.2) = pairs.map (·.item.key) := by
      have hsnd := congrArg (List.map Prod.snd) hfst
      simpa [Function.comp_def] using hsnd
    rcases mem_keys_of_foldlM hbuilt hpaths hname with hnone | hread
    · cases hnone
    · rwa [hnames] at hread

theorem LineLayout.Adds.has {field name : String} (h : line.Adds section_ draft next)
    (hroot : section_ = none → line.item.IsRoot) (hhas : next.Has field name) :
    draft.Has field name ∨ (field, name) ∈ line.keys section_ := by
  obtain ⟨node, members, hnode, hvalue, hname⟩ := hhas
  cases h with
  | nothing hitem => exact Or.inl ⟨node, members, hnode, hvalue, hname⟩
  | header hitem hfree =>
    rcases Members.mem_put hnode with heq | hnode
    · cases heq
      cases hvalue
      cases hname
    · exact Or.inl ⟨node, members, hnode, hvalue, hname⟩
  | @field pair value hitem hsection hread hfree =>
    rcases Members.mem_put hnode with heq | hnode
    · cases heq
      cases hvalue
      right
      have hkey : name ∈ pair.value.keys := by
        apply mem_keys_of_table hread hname
        intro text hplain
        have hitemRoot := hroot hsection
        rw [hitem, Content.IsRoot, hplain] at hitemRoot
        exact hitemRoot
      simp only [LineLayout.keys, hitem, hsection]
      exact List.mem_map_of_mem hkey
    · exact Or.inl ⟨node, members, hnode, hvalue, hname⟩
  | @member pair value own inner hitem hsection hinner hfree =>
    rcases Members.mem_put hnode with heq | hnode
    · cases heq
      cases hvalue
      rw [Members.keys_membersToValues] at hname
      rcases Members.mem_keys_put hname with rfl | hname
      · right
        simp [LineLayout.keys, hitem, hsection]
      · left
        refine ⟨_, _, Members.mem_of_valueOf? hinner, rfl, ?_⟩
        rwa [Members.keys_membersToValues]
    · exact Or.inl ⟨node, members, hnode, hvalue, hname⟩

theorem isRoot_of_cons
    (h : ∀ later ∈ (line :: lines).takeWhile (!·.item.isHeader), later.item.IsRoot) :
    line.item.IsRoot ∧ (line.item.isHeader = false →
      ∀ later ∈ lines.takeWhile (!·.item.isHeader), later.item.IsRoot) := by
  cases hheader : line.item.isHeader with
  | true =>
    obtain ⟨name, hitem⟩ := Content.exists_of_isHeader hheader
    rw [hitem]
    exact ⟨True.intro, fun hfalse => by cases hfalse⟩
  | false =>
    rw [List.takeWhile_cons, hheader] at h
    exact ⟨h line List.mem_cons_self, fun _ later hlater => h later (List.mem_cons_of_mem _ hlater)⟩

theorem eq_none_of_sectionAfter (h : line.sectionAfter section_ = none) :
    line.item.isHeader = false ∧ section_ = none := by
  cases hheader : line.item.isHeader with
  | true =>
    obtain ⟨name, hitem⟩ := Content.exists_of_isHeader hheader
    rw [LineLayout.sectionAfter_header hitem] at h
    cases h
  | false =>
    rw [LineLayout.sectionAfter_of_not_header hheader] at h
    exact ⟨rfl, h⟩

theorem has_of_addAll {field name : String} (hbelow : draft.Below section_)
    (h : addAll draft lines = some final)
    (hroot : section_ = none → ∀ line ∈ lines.takeWhile (!·.item.isHeader), line.item.IsRoot)
    (hhas : final.Has field name) (number : Nat) :
    draft.Has field name ∨
      ∃ place ∈ placesFrom section_ number lines, place.field = field ∧ place.name = name := by
  induction lines generalizing section_ draft number with
  | nil =>
    cases h
    exact Or.inl hhas
  | cons line lines ih =>
    obtain ⟨next, hnext, hrest⟩ := Option.bind_eq_some_iff.1 h
    have hadds := adds_of_add hbelow hnext
    have hline : section_ = none → line.item.IsRoot := fun hnone => (isRoot_of_cons (hroot hnone)).1
    have hlater : line.sectionAfter section_ = none →
        ∀ line ∈ lines.takeWhile (!·.item.isHeader), line.item.IsRoot := by
      intro hnone
      obtain ⟨hheader, rfl⟩ := eq_none_of_sectionAfter hnone
      exact (isRoot_of_cons (hroot rfl)).2 hheader
    rcases ih (hadds.below hbelow) hrest hlater (number + 1) with hnextHas | ⟨place, hplace, hkey⟩
    · rcases hadds.has hline hnextHas with hdraft | hkeys
      · exact Or.inl hdraft
      · right
        refine ⟨⟨field, name, number⟩, ?_, rfl, rfl⟩
        exact List.mem_append_left _ (List.mem_map.2 ⟨_, hkeys, rfl⟩)
    · exact Or.inr ⟨place, List.mem_append_right _ hplace, hkey⟩

end Steps

end TypedEnv.Toml
