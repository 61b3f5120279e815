import TypedEnv.Builder
import TypedEnv.Proofs.Dict
import TypedEnv.Proofs.Text

/-!
Populating as a merge.

A run adds to the variables of an environment the renderings of the values whose names it lacks,
and reports every name once.  The variables that come out and the report are the same for a map,
hashed or ordered, and for the process, as long as the process takes the names and the texts.  Over
several runs the first value of a name stays.
-/

namespace TypedEnv

/-- The process keeps texts `NAME=value`, so an equals sign in a name can only be its first
character. -/
def Environment.WellNamed (environment : Environment) : Prop :=
  environment.kind = .process → ∀ name ∈ environment.values.keys, '=' ∉ name.toList.tail

structure Exportable (delimiter key : String) (value : Document) : Prop where
  key_ne : key ≠ ""
  no_equals : '=' ∉ key.toList
  no_nul : '\x00' ∉ key.toList
  text : ∀ text ∈ renderValue delimiter value, '\x00' ∉ text.toList

instance (delimiter key : String) (value : Document) : Decidable (Exportable delimiter key value) :=
  decidable_of_iff (key ≠ "" ∧ '=' ∉ key.toList ∧ '\x00' ∉ key.toList ∧
      ∀ text ∈ renderValue delimiter value, '\x00' ∉ text.toList)
    ⟨fun h => ⟨h.1, h.2.1, h.2.2.1, h.2.2.2⟩, fun h => ⟨h.1, h.2, h.3, h.4⟩⟩

structure Nameable (key : String) : Prop where
  key_ne : key ≠ ""
  no_equals : '=' ∉ key.toList
  no_nul : '\x00' ∉ key.toList

def isUnwritable (delimiter : String) (values : Dict String) (entry : String × Document) : Bool :=
  !values.contains entry.1 && (renderValue delimiter entry.2).any (·.toList.contains '\x00')

def Parsed.Suits (parsed : Parsed) (delimiter : String) (kind : EnvironmentKind) : Prop :=
  kind = .process → ∀ entry ∈ parsed.entries, Exportable delimiter entry.1 entry.2

/-- What one run owes to the variables before it, whatever holds them. -/
structure Parsed.Merges (parsed : Parsed) (delimiter : String) (start finish : Dict String)
    (report : PopulateReport) : Prop where
  written_sorted : report.written.Pairwise (· < ·)
  skipped_sorted : report.skipped.Pairwise (· < ·)
  disjoint : ∀ key ∈ report.written, key ∉ report.skipped
  perm_keys : (report.written ++ report.skipped).Perm parsed.keys
  mem_skipped_iff : ∀ key value, parsed.get? key = some value →
    (key ∈ report.skipped ↔ start.contains key = true ∨ value = .null)
  kept : ∀ key text, start.get? key = some text → finish.get? key = some text
  rendered : ∀ key ∈ report.written, ∃ value text, parsed.get? key = some value ∧
    renderValue delimiter value = some text ∧ finish.get? key = some text
  no_other : ∀ key, finish.contains key = true → start.contains key = true ∨ key ∈ report.written

structure PopulateCall where
  parsed : Parsed
  delimiter : String

def Environment.populateAll : List PopulateCall → Environment → Option Environment
  | [], environment => some environment
  | call :: calls, environment =>
    match call.parsed.populate call.delimiter environment with
    | .complete environment _ => populateAll calls environment
    | .refused _ => none

/-- What a sequence of runs owes to the variables before it. -/
structure FirstWins (kind : EnvironmentKind) (calls : List PopulateCall)
    (start finish : Dict String) : Prop where
  kept : ∀ key text, start.get? key = some text → finish.get? key = some text
  first : ∀ before call after key value, calls = before ++ call :: after →
    start.get? key = none → call.parsed.get? key = some value → value ≠ .null →
    (∀ earlier ∈ before, ∀ other, earlier.parsed.get? key = some other → other = .null) →
    ∃ text, renderValue call.delimiter value = some text ∧ finish.get? key = some text
  unset : ∀ key, start.get? key = none →
    (∀ call ∈ calls, ∀ value, call.parsed.get? key = some value → value = .null) →
    finish.get? key = none
  repeated : ∀ call ∈ calls, ∃ report,
    call.parsed.populate call.delimiter ⟨kind, finish⟩ = .complete ⟨kind, finish⟩ report ∧
      report.written = []

theorem renderValue_eq_none_iff {delimiter : String} {value : Document} :
    renderValue delimiter value = none ↔ value = .null := by
  cases value <;> simp [renderValue]

theorem isNull_iff {value : Document} : value.isNull = true ↔ value = .null := by
  cases value <;> simp [Document.isNull]

namespace Environment

variable {environment : Environment} {delimiter key text : String} {value : Document}

theorem eq_of_prefix {name own rest : List Char} (hne : name ≠ []) (hname : '=' ∉ name)
    (hown : '=' ∉ own.tail) (h : name ++ ['='] <+: own ++ '=' :: rest) : own = name := by
  obtain ⟨after, hafter⟩ := h
  rw [List.append_assoc, List.singleton_append] at hafter
  cases name with
  | nil => exact absurd rfl hne
  | cons c name =>
    rw [List.mem_cons, not_or] at hname
    cases own with
    | nil =>
      rw [List.cons_append, List.nil_append, List.cons.injEq] at hafter
      exact absurd hafter.1.symm hname.1
    | cons d own =>
      rw [List.cons_append, List.cons_append, List.cons.injEq] at hafter
      have hcut : ∀ piece : List Char, '=' ∉ piece → ∀ rest, Text.splitWhere (· == '=')
          (piece ++ '=' :: rest) = piece :: Text.splitWhere (· == '=') rest := by
        intro piece hpiece rest
        refine Text.splitWhere_append (fun e he => ?_) rfl
        rw [beq_eq_false_iff_ne]
        rintro rfl
        exact hpiece he
      -- Both texts are the same one, cut at its first equals sign.
      have hboth := congrArg (Text.splitWhere (· == '=')) hafter.2
      rw [hcut name hname.2, hcut own hown, List.cons.injEq] at hboth
      rw [hafter.1, hboth.1]

theorem isSet_eq_contains (h : environment.WellNamed)
    (hkey : environment.kind = .process → Nameable key) :
    environment.isSet key = environment.values.contains key := by
  unfold isSet
  cases hkind : environment.kind with
  | map => rfl
  | process =>
    obtain ⟨hne, hequals, _⟩ := hkey hkind
    have hchars : key.toList ≠ [] := fun hnil => hne (String.toList_eq_nil_iff.1 hnil)
    rw [Bool.eq_iff_iff, ← Dict.mem_keys_iff]
    simp only [Bool.and_eq_true, bne_iff_ne, List.any_eq_true, List.isPrefixOf_iff_prefix,
      String.toList_append]
    constructor
    · rintro ⟨_, ⟨own, kept⟩, hmem, hprefix⟩
      have hown : own ∈ environment.values.keys := List.mem_map_of_mem hmem
      rw [List.append_assoc] at hprefix
      have heq := eq_of_prefix hchars hequals (h hkind own hown) hprefix
      rwa [String.toList_inj.1 heq] at hown
    · intro hmem
      obtain ⟨entry, hentry, rfl⟩ := List.mem_map.1 hmem
      exact ⟨hne, entry, hentry, List.prefix_append _ _⟩

theorem admits_iff (hkey : environment.kind = .process → Nameable key) :
    environment.admits key text = true ↔
      (environment.kind = .process → '\x00' ∉ text.toList) := by
  unfold admits
  cases hkind : environment.kind with
  | map => simp
  | process =>
    obtain ⟨hne, hequals, hnul⟩ := hkey hkind
    simp [bne_iff_ne.2 hne, hequals, hnul]

theorem WellNamed.set (h : environment.WellNamed)
    (hkey : environment.kind = .process → Nameable key) (text : String) :
    (environment.set key text).WellNamed := by
  intro hkind name hname
  rcases Dict.mem_keys_insert.1 hname with rfl | hname
  · exact fun hmem => (hkey hkind).no_equals (List.mem_of_mem_tail hmem)
  · exact h hkind name hname

end Environment

theorem Exportable.nameable {delimiter key : String} {value : Document}
    (h : Exportable delimiter key value) : Nameable key :=
  ⟨h.key_ne, h.no_equals, h.no_nul⟩

theorem Exportable.not_isUnwritable {delimiter : String} {entry : String × Document}
    (h : Exportable delimiter entry.1 entry.2) (values : Dict String) :
    isUnwritable delimiter values entry = false := by
  have htexts : (renderValue delimiter entry.2).any (·.toList.contains '\x00') = false := by
    rw [Option.any_eq_false]
    intro text ht
    simpa using h.text text ht
  rw [isUnwritable, htexts, Bool.and_false]

def Dict.offer (values : Dict String) (name : String) (text : Option String) : Dict String :=
  if values.contains name then values else text.elim values (values.insert name)

def mergeEntries (delimiter : String) (entries : List (String × Document))
    (values : Dict String) : Dict String :=
  entries.foldl (fun values entry => values.offer entry.1 (renderValue delimiter entry.2)) values

def isNew (values : Dict String) (entry : String × Document) : Bool :=
  !(values.contains entry.1 || entry.2.isNull)

def reportOf (values : Dict String) (entries : List (String × Document)) : PopulateReport where
  written := (entries.filter (isNew values)).map Prod.fst
  skipped := (entries.filter (!isNew values ·)).map Prod.fst

section Run

variable {kind : EnvironmentKind} {delimiter key : String} {start : Dict String}
  {entries : List (String × Document)}

theorem Dict.offer_of_contains {values : Dict String} {name : String}
    (h : values.contains name = true) (text : Option String) : values.offer name text = values :=
  if_pos h

theorem Dict.offer_of_not_contains {values : Dict String} {name : String}
    (h : values.contains name = false) (text : Option String) :
    values.offer name text = text.elim values (values.insert name) := by
  rw [offer, h, if_neg Bool.false_ne_true]

theorem Dict.get?_offer (values : Dict String) (name key : String) (text : Option String) :
    (values.offer name text).get? key =
      if key = name then (values.get? name).or text else values.get? key := by
  cases hc : values.contains name with
  | true =>
    obtain ⟨own, hown⟩ := Option.isSome_iff_exists.1 hc
    rw [offer_of_contains hc]
    split
    · next hkey => rw [hkey, hown, Option.some_or]
    · rfl
  | false =>
    rw [offer_of_not_contains hc, contains_eq_false_iff.1 hc, Option.none_or]
    cases text with
    | none =>
      split
      · next hkey => rw [hkey, Option.elim_none, contains_eq_false_iff.1 hc]
      · rfl
    | some text => exact get?_insert values name key text

theorem get?_mergeEntries (hn : (entries.map Prod.fst).Nodup) (start : Dict String) (key : String) :
    (mergeEntries delimiter entries start).get? key =
      (start.get? key).or ((valueOf? key entries).bind (renderValue delimiter)) := by
  induction entries generalizing start with
  | nil => exact Option.or_none.symm
  | cons entry rest ih =>
    rw [List.map_cons, List.nodup_cons] at hn
    rw [mergeEntries, List.foldl_cons, ← mergeEntries, ih hn.2, Dict.get?_offer, valueOf?_cons]
    by_cases hkey : key = entry.1
    · rw [if_pos hkey, if_pos hkey.symm, hkey, valueOf?_eq_none_iff.2 hn.1]
      exact Option.or_none
    · rw [if_neg hkey, if_neg (Ne.symm hkey)]

theorem Dict.contains_offer_of_ne {values : Dict String} {name key : String} (h : key ≠ name)
    (text : Option String) : (values.offer name text).contains key = values.contains key := by
  rw [contains, contains, get?_offer, if_neg h]

theorem ne_of_mem_of_not_mem_names {entry : String × Document} (hentry : entry ∈ entries)
    (h : key ∉ entries.map Prod.fst) : entry.1 ≠ key := by
  rintro rfl
  exact h (List.mem_map_of_mem hentry)

theorem isNew_offer_of_ne {entry : String × Document} (h : entry.1 ≠ key) (text : Option String) :
    isNew (start.offer key text) entry = isNew start entry := by
  rw [isNew, isNew, Dict.contains_offer_of_ne h]

theorem isUnwritable_offer_of_ne {entry : String × Document} (h : entry.1 ≠ key)
    (text : Option String) :
    isUnwritable delimiter (start.offer key text) entry = isUnwritable delimiter start entry := by
  rw [isUnwritable, isUnwritable, Dict.contains_offer_of_ne h]

/-- What a run has written is not seen by the rest of it, as names do not repeat. -/
theorem reportOf_offer (h : key ∉ entries.map Prod.fst) (text : Option String) :
    reportOf (start.offer key text) entries = reportOf start entries := by
  have hnew : ∀ entry ∈ entries, isNew (start.offer key text) entry = isNew start entry :=
    fun entry hentry => isNew_offer_of_ne (ne_of_mem_of_not_mem_names hentry h) text
  have hold : ∀ entry ∈ entries, (!isNew (start.offer key text) entry) = !isNew start entry := by
    intro entry hentry
    rw [hnew entry hentry]
  rw [reportOf, reportOf, List.filter_congr hnew, List.filter_congr hold]

theorem reportOf_cons (entry : String × Document) :
    reportOf start (entry :: entries) =
      if isNew start entry then
        { reportOf start entries with written := entry.1 :: (reportOf start entries).written }
      else { reportOf start entries with
        skipped := entry.1 :: (reportOf start entries).skipped } := by
  unfold reportOf
  cases hnew : isNew start entry <;> simp [hnew]

theorem Environment.WellNamed.offer (hw : (Environment.mk kind start).WellNamed)
    (hkey : kind = .process → Nameable key) (text : Option String) :
    (Environment.mk kind (start.offer key text)).WellNamed := by
  cases hc : start.contains key with
  | true => rwa [Dict.offer_of_contains hc]
  | false =>
    rw [Dict.offer_of_not_contains hc]
    cases text with
    | none => exact hw
    | some text => exact hw.set hkey text

theorem populateEntries_cons {entry : String × Document}
    (hw : (Environment.mk kind start).WellNamed) (hkey : kind = .process → Nameable entry.1)
    (hfree : kind = .process → isUnwritable delimiter start entry = false) :
    populateEntries delimiter (entry :: entries) ⟨kind, start⟩ =
      (populateEntries delimiter entries
        ⟨kind, start.offer entry.1 (renderValue delimiter entry.2)⟩).note
          (isNew start entry) entry.1 := by
  obtain ⟨key, value⟩ := entry
  rw [populateEntries, Environment.isSet_eq_contains hw hkey, isNew]
  dsimp only
  cases hc : start.contains key with
  | true =>
    rw [if_pos rfl, Dict.offer_of_contains hc]
    rfl
  | false =>
    rw [if_neg Bool.false_ne_true, Dict.offer_of_not_contains hc]
    cases hr : renderValue delimiter value with
    | none =>
      rw [isNull_iff.2 (renderValue_eq_none_iff.1 hr)]
      rfl
    | some text =>
      have hnull : value.isNull = false := by
        rw [← Bool.not_eq_true, isNull_iff]
        rintro rfl
        cases hr
      have hadmits : (Environment.mk kind start).admits key text = true := by
        rw [Environment.admits_iff hkey]
        intro hkind
        simpa [isUnwritable, hc, hr] using hfree hkind
      rw [hnull]
      dsimp only
      rw [if_pos hadmits]
      rfl

/-- A run comes to its end with the merged variables and the report, whatever holds them. -/
theorem populateEntries_eq (hw : (Environment.mk kind start).WellNamed)
    (hkeys : kind = .process → ∀ entry ∈ entries, Nameable entry.1)
    (hfree : kind = .process → ∀ entry ∈ entries, isUnwritable delimiter start entry = false)
    (hn : (entries.map Prod.fst).Nodup) :
    populateEntries delimiter entries ⟨kind, start⟩ =
      .complete ⟨kind, mergeEntries delimiter entries start⟩ (reportOf start entries) := by
  induction entries generalizing start with
  | nil => rfl
  | cons entry rest ih =>
    rw [List.map_cons, List.nodup_cons] at hn
    simp only [List.forall_mem_cons] at hkeys hfree
    have hkey : kind = .process → Nameable entry.1 := fun hkind => (hkeys hkind).1
    have hrest : kind = .process → ∀ later ∈ rest, isUnwritable delimiter
        (start.offer entry.1 (renderValue delimiter entry.2)) later = false := by
      intro hkind later hlater
      rw [isUnwritable_offer_of_ne (ne_of_mem_of_not_mem_names hlater hn.1)]
      exact (hfree hkind).2 later hlater
    rw [populateEntries_cons hw hkey fun hkind => (hfree hkind).1,
      ih (hw.offer hkey _) (fun hkind => (hkeys hkind).2) hrest hn.2, reportOf_offer hn.1,
      reportOf_cons]
    cases isNew start entry <;> rfl

theorem populateEntries_of_isUnwritable {before after : List (String × Document)}
    {entry : String × Document} (hw : (Environment.mk .process start).WellNamed)
    (hkeys : ∀ own ∈ before ++ entry :: after, Nameable own.1)
    (hfree : ∀ own ∈ before, isUnwritable delimiter start own = false)
    (hentry : isUnwritable delimiter start entry = true)
    (hn : ((before ++ entry :: after).map Prod.fst).Nodup) :
    populateEntries delimiter (before ++ entry :: after) ⟨.process, start⟩ =
      .refused ⟨.process, mergeEntries delimiter before start⟩ := by
  induction before generalizing start with
  | nil =>
    obtain ⟨key, value⟩ := entry
    rw [List.nil_append, List.forall_mem_cons] at hkeys
    rw [isUnwritable, Bool.and_eq_true, Bool.not_eq_true', Option.any_eq_true] at hentry
    obtain ⟨hc, text, hr, hnul⟩ := hentry
    rw [List.nil_append, populateEntries, Environment.isSet_eq_contains hw fun _ => hkeys.1]
    dsimp only at hkeys hc hr ⊢
    have hrefused : ¬ (Environment.mk .process start).admits key text = true := by
      rw [Environment.admits_iff fun _ => hkeys.1]
      exact fun h => h rfl (by simpa using hnul)
    rw [hc, hr, if_neg Bool.false_ne_true]
    exact if_neg hrefused
  | cons first before ih =>
    rw [List.cons_append, List.map_cons, List.nodup_cons] at hn
    rw [List.cons_append, List.forall_mem_cons] at hkeys
    rw [List.forall_mem_cons] at hfree
    have hkey : EnvironmentKind.process = .process → Nameable first.1 := fun _ => hkeys.1
    have hother : ∀ own ∈ before ++ entry :: after, own.1 ≠ first.1 := fun own hown =>
      ne_of_mem_of_not_mem_names hown hn.1
    have hbefore : ∀ own ∈ before, isUnwritable delimiter
        (start.offer first.1 (renderValue delimiter first.2)) own = false := by
      intro own hown
      rw [isUnwritable_offer_of_ne (hother own (List.mem_append_left _ hown))]
      exact hfree.2 own hown
    have hlast : isUnwritable delimiter
        (start.offer first.1 (renderValue delimiter first.2)) entry = true := by
      rw [isUnwritable_offer_of_ne (hother entry (by simp))]
      exact hentry
    rw [List.cons_append, populateEntries_cons hw hkey fun _ => hfree.1,
      ih (hw.offer hkey _) hkeys.2 hbefore hlast hn.2]
    rfl

end Run

namespace Parsed

variable {kind : EnvironmentKind} {parsed : Parsed} {delimiter key : String} {value : Document}
  {start : Dict String}

def merged (parsed : Parsed) (delimiter : String) (start : Dict String) : Dict String :=
  mergeEntries delimiter parsed.entries start

def rendering? (parsed : Parsed) (delimiter key : String) : Option String :=
  (parsed.get? key).bind (renderValue delimiter)

theorem get?_merged (parsed : Parsed) (delimiter : String) (start : Dict String) (key : String) :
    (parsed.merged delimiter start).get? key =
      (start.get? key).or (parsed.rendering? delimiter key) :=
  get?_mergeEntries parsed.values.nodup_keys start key

theorem populate_eq (hw : (Environment.mk kind start).WellNamed)
    (hs : parsed.Suits delimiter kind) :
    parsed.populate delimiter ⟨kind, start⟩ =
      .complete ⟨kind, parsed.merged delimiter start⟩ (reportOf start parsed.entries) :=
  populateEntries_eq hw (fun hkind entry hentry => (hs hkind entry hentry).nameable)
    (fun hkind entry hentry => (hs hkind entry hentry).not_isUnwritable start)
    parsed.values.nodup_keys

theorem isNew_iff : isNew start (key, value) = true ↔
    start.contains key = false ∧ value ≠ .null := by
  rw [isNew, Bool.not_eq_true', Bool.or_eq_false_iff, ne_eq, ← isNull_iff, Bool.not_eq_true]

theorem mem_written_iff : key ∈ (reportOf start parsed.entries).written ↔
    ∃ value, parsed.get? key = some value ∧ start.contains key = false ∧ value ≠ .null := by
  simp only [reportOf, List.mem_map, List.mem_filter, Prod.exists, exists_and_right,
    exists_eq_right, isNew_iff, get?, entries, Dict.get?_eq_some_iff]

theorem mem_skipped_iff : key ∈ (reportOf start parsed.entries).skipped ↔
    ∃ value, parsed.get? key = some value ∧ (start.contains key = true ∨ value = .null) := by
  simp only [reportOf, List.mem_map, List.mem_filter, Prod.exists, exists_and_right,
    exists_eq_right, Bool.not_eq_true', get?, entries, Dict.get?_eq_some_iff, isNew,
    Bool.not_eq_false', Bool.or_eq_true, isNull_iff]

theorem rendering?_eq_none_iff :
    parsed.rendering? delimiter key = none ↔
      ∀ value, parsed.get? key = some value → value = .null := by
  rw [rendering?]
  cases parsed.get? key with
  | none => simp
  | some value =>
    rw [Option.bind_some, renderValue_eq_none_iff]
    exact ⟨fun hnull other hother => Option.some.inj hother ▸ hnull, fun h => h value rfl⟩

theorem merges_merged (parsed : Parsed) (delimiter : String) (start : Dict String) :
    parsed.Merges delimiter start (parsed.merged delimiter start)
      (reportOf start parsed.entries) := by
  constructor
  case written_sorted =>
    exact parsed.values.keys_sorted.sublist (List.filter_sublist.map Prod.fst)
  case skipped_sorted =>
    exact parsed.values.keys_sorted.sublist (List.filter_sublist.map Prod.fst)
  case disjoint =>
    intro key hwritten hskipped
    obtain ⟨value, hvalue, hc, hnull⟩ := mem_written_iff.1 hwritten
    obtain ⟨other, hother, hset | rfl⟩ := mem_skipped_iff.1 hskipped
    · rw [hc] at hset
      cases hset
    · rw [hvalue] at hother
      exact hnull (Option.some.inj hother)
  case perm_keys =>
    rw [reportOf, ← List.map_append]
    exact (List.filter_append_perm (isNew start) parsed.entries).map Prod.fst
  case mem_skipped_iff =>
    intro key value hvalue
    rw [mem_skipped_iff, hvalue]
    simp
  case kept =>
    intro key text ht
    rw [get?_merged, ht, Option.some_or]
  case rendered =>
    intro key hwritten
    obtain ⟨value, hvalue, hc, hnull⟩ := mem_written_iff.1 hwritten
    obtain ⟨text, ht⟩ := Option.ne_none_iff_exists'.1 (mt renderValue_eq_none_iff.1 hnull)
    refine ⟨value, text, hvalue, ht, ?_⟩
    rw [get?_merged, Dict.contains_eq_false_iff.1 hc, Option.none_or, rendering?, hvalue]
    exact ht
  case no_other =>
    intro key hkey
    cases hc : start.contains key with
    | true => exact Or.inl rfl
    | false =>
      rw [Dict.contains, get?_merged, Dict.contains_eq_false_iff.1 hc, Option.none_or] at hkey
      obtain ⟨text, htext⟩ := Option.isSome_iff_exists.1 hkey
      obtain ⟨value, hvalue, ht⟩ := Option.bind_eq_some_iff.1 htext
      refine Or.inr (mem_written_iff.2 ⟨value, hvalue, hc, ?_⟩)
      rintro rfl
      cases ht

theorem wellNamed_merged (hw : (Environment.mk kind start).WellNamed)
    (hs : parsed.Suits delimiter kind) :
    (Environment.mk kind (parsed.merged delimiter start)).WellNamed := by
  intro hkind name hname
  rcases (parsed.merges_merged delimiter start).no_other name (Dict.mem_keys_iff.1 hname) with
    hstart | hwritten
  · exact hw hkind name (Dict.mem_keys_iff.2 hstart)
  · obtain ⟨value, hvalue, _⟩ := mem_written_iff.1 hwritten
    have hexportable := hs hkind (name, value) (Dict.get?_eq_some_iff.1 hvalue)
    exact fun hmem => hexportable.no_equals (List.mem_of_mem_tail hmem)

end Parsed

def mergeAll (calls : List PopulateCall) (start : Dict String) : Dict String :=
  calls.foldl (fun values call => call.parsed.merged call.delimiter values) start

section Runs

variable {kind : EnvironmentKind} {calls : List PopulateCall} {start : Dict String}

theorem populateAll_eq (hw : (Environment.mk kind start).WellNamed)
    (hs : ∀ call ∈ calls, call.parsed.Suits call.delimiter kind) :
    Environment.populateAll calls ⟨kind, start⟩ = some ⟨kind, mergeAll calls start⟩ ∧
      (Environment.mk kind (mergeAll calls start)).WellNamed := by
  induction calls generalizing start with
  | nil => exact ⟨rfl, hw⟩
  | cons call later ih =>
    rw [List.forall_mem_cons] at hs
    rw [Environment.populateAll, Parsed.populate_eq hw hs.1]
    exact ih (Parsed.wellNamed_merged hw hs.1) hs.2

theorem get?_mergeAll (calls : List PopulateCall) (start : Dict String) (key : String) :
    (mergeAll calls start).get? key =
      (start.get? key).or
        (calls.findSome? fun call => call.parsed.rendering? call.delimiter key) := by
  induction calls generalizing start with
  | nil => exact Option.or_none.symm
  | cons call later ih =>
    rw [mergeAll, List.foldl_cons, ← mergeAll, ih, Parsed.get?_merged, Option.or_assoc,
      List.findSome?_cons]
    cases call.parsed.rendering? call.delimiter key <;> rfl

theorem merged_mergeAll {call : PopulateCall} (h : call ∈ calls) :
    call.parsed.merged call.delimiter (mergeAll calls start) = mergeAll calls start := by
  apply Dict.ext_get?
  intro key
  rw [Parsed.get?_merged]
  cases hk : (mergeAll calls start).get? key with
  | some text => rfl
  | none =>
    rw [get?_mergeAll, Option.or_eq_none_iff, List.findSome?_eq_none_iff] at hk
    exact hk.2 call h

theorem written_mergeAll {call : PopulateCall} (h : call ∈ calls) :
    (reportOf (mergeAll calls start) call.parsed.entries).written = [] := by
  rw [List.eq_nil_iff_forall_not_mem]
  intro key hwritten
  obtain ⟨_, _, hc, _⟩ := Parsed.mem_written_iff.1 hwritten
  obtain ⟨_, text, _, _, ht⟩ :=
    (call.parsed.merges_merged call.delimiter (mergeAll calls start)).rendered key hwritten
  rw [merged_mergeAll h, Dict.contains_eq_false_iff.1 hc] at ht
  cases ht

theorem firstWins_mergeAll (hw : (Environment.mk kind start).WellNamed)
    (hs : ∀ call ∈ calls, call.parsed.Suits call.delimiter kind) :
    FirstWins kind calls start (mergeAll calls start) := by
  constructor
  case kept =>
    intro key text ht
    rw [get?_mergeAll, ht, Option.some_or]
  case first =>
    intro before call after key value hsplit hkey hvalue hnull hbefore
    obtain ⟨text, ht⟩ := Option.ne_none_iff_exists'.1 (mt renderValue_eq_none_iff.1 hnull)
    refine ⟨text, ht, ?_⟩
    rw [get?_mergeAll, hkey, Option.none_or, List.findSome?_eq_some_iff]
    refine ⟨before, call, after, hsplit, ?_, fun earlier he => ?_⟩
    · rw [Parsed.rendering?, hvalue]
      exact ht
    · exact Parsed.rendering?_eq_none_iff.2 (hbefore earlier he)
  case unset =>
    intro key hkey hcalls
    rw [get?_mergeAll, hkey, Option.none_or, List.findSome?_eq_none_iff]
    exact fun call hcall => Parsed.rendering?_eq_none_iff.2 (hcalls call hcall)
  case repeated =>
    intro call hcall
    have hfinish := (populateAll_eq hw hs).2
    refine ⟨reportOf (mergeAll calls start) call.parsed.entries, ?_, written_mergeAll hcall⟩
    rw [Parsed.populate_eq hfinish (hs call hcall), merged_mergeAll hcall]

end Runs

theorem Builder.populateWith_of_build {builder : Builder} {host : Host} {parser : Parser}
    (h : builder.build host = .ok parser) (parsed : Parsed) (environment : Environment) :
    parser.populateWith parsed environment =
      if builder.populate then .ok (parsed.populate builder.delimiter environment)
      else .error .populateDisabled := by
  obtain ⟨path, schema, _, _, rfl⟩ := builder.eq_of_build h
  rfl

/-- Populating merges the values into the variables of a map or of the process alike and overwrites
nothing.  Over several runs the first value of a name stays and no run writes twice.  A parser
populates exactly when it was built to. -/
theorem populate_merges (start : Dict String) :
    (∀ (parsed : Parsed) delimiter, ∃ finish report, parsed.Merges delimiter start finish report ∧
      ∀ kind, (Environment.mk kind start).WellNamed → parsed.Suits delimiter kind →
        parsed.populate delimiter ⟨kind, start⟩ = .complete ⟨kind, finish⟩ report) ∧
    (∀ calls, ∃ finish, ∀ kind, (Environment.mk kind start).WellNamed →
      (∀ call ∈ calls, call.parsed.Suits call.delimiter kind) →
        Environment.populateAll calls ⟨kind, start⟩ = some ⟨kind, finish⟩ ∧
          FirstWins kind calls start finish) ∧
    ∀ (builder : Builder) host parser, builder.build host = .ok parser → ∀ parsed kind,
      parser.populateWith parsed ⟨kind, start⟩ =
        if builder.populate then .ok (parsed.populate builder.delimiter ⟨kind, start⟩)
        else .error .populateDisabled := by
  refine ⟨fun parsed delimiter => ?_, fun calls => ?_, fun builder host parser hbuild => ?_⟩
  · exact ⟨parsed.merged delimiter start, reportOf start parsed.entries,
      parsed.merges_merged delimiter start, fun kind hw hs => Parsed.populate_eq hw hs⟩
  · exact ⟨mergeAll calls start, fun kind hw hs =>
      ⟨(populateAll_eq hw hs).1, firstWins_mergeAll hw hs⟩⟩
  · exact fun parsed kind => builder.populateWith_of_build hbuild parsed ⟨kind, start⟩

theorem populate_merges_process :
    let start : Dict String := .ofList [("=", "="), ("HOME", "/root")]
    let first : Parsed :=
      .ofList [("HOME", .string "new"), ("LIST", .array [.string "a", .string "b"]), ("N", .null)]
    let second : Parsed := .ofList [("LIST", .string "late"), ("N", .bool true)]
    let calls : List PopulateCall := [⟨first, ":"⟩, ⟨second, ", "⟩]
    (Environment.mk .process start).WellNamed ∧
      (∀ call ∈ calls, call.parsed.Suits call.delimiter .process) ∧
      ∃ finish, Environment.populateAll calls ⟨.process, start⟩ = some ⟨.process, finish⟩ ∧
        finish.get? "HOME" = some "/root" ∧ finish.get? "LIST" = some "a:b" ∧
        finish.get? "N" = some "true" ∧ finish.get? "OTHER" = none := by
  intro start first second calls
  have hw : (Environment.mk .process start).WellNamed := fun _ => by decide
  have hs : ∀ call ∈ calls, call.parsed.Suits call.delimiter .process := by
    rw [List.forall_mem_cons, List.forall_mem_singleton]
    exact ⟨fun _ => by decide, fun _ => by decide⟩
  obtain ⟨_, hruns, _⟩ := populate_merges start
  obtain ⟨finish, hfinish⟩ := hruns calls
  obtain ⟨hall, hfirst⟩ := hfinish .process hw hs
  refine ⟨hw, hs, finish, hall, hfirst.kept "HOME" "/root" rfl, ?_, ?_, ?_⟩
  · obtain ⟨text, ht, hget⟩ := hfirst.first [] ⟨first, ":"⟩ [⟨second, ", "⟩] "LIST"
      (.array [.string "a", .string "b"]) rfl rfl rfl nofun nofun
    rw [hget, ← ht]
    rfl
  · obtain ⟨text, ht, hget⟩ := hfirst.first [⟨first, ":"⟩] ⟨second, ", "⟩ [] "N"
      (.bool true) rfl rfl rfl nofun (by
        rw [List.forall_mem_singleton]
        rintro other ⟨⟩
        rfl)
    rw [hget, ← ht]
    rfl
  · apply hfirst.unset "OTHER" rfl
    rw [List.forall_mem_cons, List.forall_mem_singleton]
    exact ⟨nofun, nofun⟩

end TypedEnv
