import Mathlib.Data.List.TakeWhile
import TypedEnv.Error
import TypedEnv.Proofs.Populate
import TypedEnv.Proofs.Rendering

/-!
Loads in one go.

A load that fails leaves the variables of the process as they were, and so does one that does not
populate.  One that populates writes all that it has to, unless a value that it has to write carries
a NUL.  The process refuses the first such value, and the load breaks off with the variables in
front of it written: it is not all or nothing.
-/

namespace TypedEnv

/-- A variable keeps its text, or else has the rendering of its value among the entries. -/
def Fills (delimiter : String) (entries : List (String × Document)) (start finish : Dict String) :
    Prop :=
  ∀ key, finish.get? key =
    (start.get? key).or ((valueOf? key entries).bind (renderValue delimiter))

def Breaks (delimiter : String) (values : Dict String) (entry : String × Document) : Prop :=
  values.contains entry.1 = false ∧ entry.2.CarriesNul delimiter

namespace Builder

def read (builder : Builder) (host : Host) : Except Error Parsed := do
  let parser ← builder.build host
  (parser.parseFile host).1

/-- What comes of a load, and the variables of the process after it. -/
inductive Loads (builder : Builder) (host : Host) : LoadResult → Dict String → Prop
  | failed {error : Error} (h : builder.read host = .error error) :
      Loads builder host (.failed error) host.environment
  | unpopulated {parsed : Parsed} (h : builder.read host = .ok parsed)
      (hoff : builder.populate = false) : Loads builder host (.loaded parsed) host.environment
  | populated {parsed : Parsed} {finish : Dict String} (h : builder.read host = .ok parsed)
      (hon : builder.populate = true)
      (hfree : ∀ entry ∈ parsed.entries, ¬ Breaks builder.delimiter host.environment entry)
      (hfills : Fills builder.delimiter parsed.entries host.environment finish) :
      Loads builder host (.loaded parsed) finish
  | refused {parsed : Parsed} {finish : Dict String} {before after : List (String × Document)}
      {entry : String × Document} (h : builder.read host = .ok parsed)
      (hon : builder.populate = true) (hsplit : parsed.entries = before ++ entry :: after)
      (hfree : ∀ own ∈ before, ¬ Breaks builder.delimiter host.environment own)
      (hentry : Breaks builder.delimiter host.environment entry)
      (hfills : Fills builder.delimiter before host.environment finish) :
      Loads builder host .refused finish

end Builder

theorem nameable_ofList {name : List Char} (hne : name ≠ [])
    (h : ∀ c ∈ name, Assignment.isKeyChar c = true) : Nameable (String.ofList name) where
  key_ne := by
    rw [ne_eq, ← String.toList_eq_nil_iff, String.toList_ofList]
    exact hne
  no_equals := by
    rw [String.toList_ofList]
    exact fun hmem => absurd (h _ hmem) (by decide)
  no_nul := by
    rw [String.toList_ofList]
    exact fun hmem => absurd (h _ hmem) (by decide)

namespace Assignment

theorem nameable_of_ofLine? {line : List Char} {a : Assignment} (h : ofLine? line = some a) :
    Nameable a.key := by
  unfold ofLine? at h
  dsimp only at h
  split at h
  · split at h
    · cases h
    · next hne =>
      obtain ⟨value, -, rfl⟩ := Option.map_eq_some_iff.1 h
      exact nameable_ofList hne fun c hc => List.mem_takeWhile_imp hc
  · cases h

theorem nameable_of_mem_ofText {text : String} {a : Assignment} (h : a ∈ ofText text) :
    Nameable a.key := by
  obtain ⟨line, -, hline⟩ := List.mem_filterMap.1 h
  exact nameable_of_ofLine? hline

end Assignment

theorem Schema.nameable_of_evaluateFrom {schema : Schema} {assignments : List Assignment}
    (h : ∀ a ∈ assignments, Nameable a.key) {start parsed : Parsed} {registry : Registry}
    (hstart : ∀ key ∈ start.keys, Nameable key)
    (heval : (schema.evaluateFrom start assignments registry).1 = .ok parsed) :
    ∀ key ∈ parsed.keys, Nameable key := by
  induction assignments generalizing start registry with
  | nil =>
    cases heval
    exact hstart
  | cons a rest ih =>
    rw [List.forall_mem_cons] at h
    rw [evaluateFrom] at heval
    split at heval
    · refine ih h.2 (fun key hkey => ?_) heval
      rcases Dict.mem_keys_insert.1 hkey with rfl | hkey
      · exact h.1
      · exact hstart key hkey
    · exact ih h.2 hstart heval
    · cases heval

theorem Parser.nameable_of_parseFile {parser : Parser} {host : Host} {parsed : Parsed}
    (h : (parser.parseFile host).1 = .ok parsed) : ∀ entry ∈ parsed.entries, Nameable entry.1 := by
  unfold parseFile at h
  split at h
  · cases h
  · next text _ =>
    have hnames : ∀ a ∈ Assignment.ofText text, Nameable a.key :=
      fun a ha => Assignment.nameable_of_mem_ofText ha
    have hempty : ∀ key ∈ Parsed.empty.keys, Nameable key := nofun
    have hkeys := Schema.nameable_of_evaluateFrom hnames hempty h
    exact fun entry hentry => hkeys entry.1 (List.mem_map_of_mem hentry)

section Run

variable {delimiter : String} {start : Dict String}
  {entries before after : List (String × Document)} {entry : String × Document}

theorem isUnwritable_iff :
    isUnwritable delimiter start entry = true ↔ Breaks delimiter start entry := by
  rw [isUnwritable, Breaks, ← nul_mem_renderValue_iff, Bool.and_eq_true, Bool.not_eq_true',
    Option.any_eq_true]
  simp

theorem isUnwritable_eq_false_iff :
    isUnwritable delimiter start entry = false ↔ ¬ Breaks delimiter start entry := by
  rw [← isUnwritable_iff, Bool.not_eq_true]

theorem breaks_or_not (delimiter : String) (start : Dict String)
    (entries : List (String × Document)) :
    (∀ entry ∈ entries, ¬ Breaks delimiter start entry) ∨
      ∃ before entry after, entries = before ++ entry :: after ∧
        (∀ own ∈ before, ¬ Breaks delimiter start own) ∧ Breaks delimiter start entry := by
  cases hfind : entries.find? (isUnwritable delimiter start) with
  | none =>
    refine Or.inl fun entry hentry => ?_
    rw [← isUnwritable_iff]
    exact List.find?_eq_none.1 hfind entry hentry
  | some entry =>
    obtain ⟨hentry, before, after, hsplit, hbefore⟩ := List.find?_eq_some_iff_append.1 hfind
    refine Or.inr ⟨before, entry, after, hsplit, fun own hown => ?_, isUnwritable_iff.1 hentry⟩
    rw [← isUnwritable_eq_false_iff, ← Bool.not_eq_true']
    exact hbefore own hown

theorem fills_mergeEntries (hn : (entries.map Prod.fst).Nodup) (start : Dict String) :
    Fills delimiter entries start (mergeEntries delimiter entries start) :=
  fun key => get?_mergeEntries hn start key

theorem Parsed.populate_of_not_breaks (parsed : Parsed)
    (hw : (Environment.mk .process start).WellNamed)
    (hkeys : ∀ entry ∈ parsed.entries, Nameable entry.1)
    (hfree : ∀ entry ∈ parsed.entries, ¬ Breaks delimiter start entry) :
    parsed.populate delimiter ⟨.process, start⟩ =
      .complete ⟨.process, parsed.merged delimiter start⟩ (reportOf start parsed.entries) :=
  populateEntries_eq hw (fun _ => hkeys)
    (fun _ entry hentry => isUnwritable_eq_false_iff.2 (hfree entry hentry))
    parsed.values.nodup_keys

theorem Parsed.populate_of_breaks (parsed : Parsed)
    (hw : (Environment.mk .process start).WellNamed)
    (hkeys : ∀ entry ∈ parsed.entries, Nameable entry.1)
    (hsplit : parsed.entries = before ++ entry :: after)
    (hfree : ∀ own ∈ before, ¬ Breaks delimiter start own)
    (hentry : Breaks delimiter start entry) :
    parsed.populate delimiter ⟨.process, start⟩ =
      .refused ⟨.process, mergeEntries delimiter before start⟩ := by
  have hn : (parsed.entries.map Prod.fst).Nodup := parsed.values.nodup_keys
  rw [hsplit] at hkeys hn
  rw [populate, hsplit]
  exact populateEntries_of_isUnwritable hw hkeys
    (fun own hown => isUnwritable_eq_false_iff.2 (hfree own hown)) (isUnwritable_iff.2 hentry) hn

end Run

namespace Builder

variable {builder : Builder} {host : Host} {parsed : Parsed}

theorem load_eq (builder : Builder) (host : Host) :
    builder.load host = match builder.read host with
      | .error error => (.failed error, host.environment)
      | .ok parsed =>
        if builder.populate then
          match parsed.populate builder.delimiter ⟨.process, host.environment⟩ with
          | .complete environment _ => (.loaded parsed, environment.values)
          | .refused environment => (.refused, environment.values)
        else (.loaded parsed, host.environment) := by
  rw [load, read]
  cases hbuild : builder.build host with
  | error error => rfl
  | ok parser =>
    obtain ⟨path, schema, -, -, rfl⟩ := eq_of_build hbuild
    dsimp only [bind, Except.bind]
    generalize Parser.parseFile _ host = outcome
    obtain ⟨result, after⟩ := outcome
    cases result <;> rfl

theorem nameable_of_read (h : builder.read host = .ok parsed) :
    ∀ entry ∈ parsed.entries, Nameable entry.1 := by
  obtain ⟨parser, -, hparse⟩ := exists_of_bind_eq_ok h
  exact Parser.nameable_of_parseFile hparse

/-- A load ends in one of four ways, and each of them settles the variables of the process. -/
theorem loads_load (builder : Builder) {host : Host}
    (hw : (Environment.mk .process host.environment).WellNamed) :
    builder.Loads host (builder.load host).1 (builder.load host).2 := by
  rw [load_eq]
  cases hread : builder.read host with
  | error error => exact .failed hread
  | ok parsed =>
    have hkeys := nameable_of_read hread
    dsimp only
    cases hpopulate : builder.populate with
    | false => exact .unpopulated hread hpopulate
    | true =>
      rw [if_pos rfl]
      rcases breaks_or_not builder.delimiter host.environment parsed.entries with
        hfree | ⟨before, entry, after, hsplit, hfree, hentry⟩
      · rw [parsed.populate_of_not_breaks hw hkeys hfree]
        exact .populated hread hpopulate hfree (fills_mergeEntries parsed.values.nodup_keys _)
      · have hn : (before.map Prod.fst).Nodup := by
          have hall := parsed.values.nodup_keys
          rw [Dict.keys, ← Parsed.entries, hsplit, List.map_append] at hall
          exact (List.nodup_append.1 hall).1
        rw [parsed.populate_of_breaks hw hkeys hsplit hfree hentry]
        exact .refused hread hpopulate hsplit hfree hentry (fills_mergeEntries hn _)

theorem loads_load_set :
    let builder := Builder.initial.withFile "e"
    let host : Host := ⟨Volume.empty.put ["e"] (.file "A=1\nB=x\x00y\nC=2".toUTF8.toList),
      .present "/", .ofList [("B", "kept"), ("HOME", "/root")], none⟩
    (Environment.mk .process host.environment).WellNamed ∧
      builder.Loads host (builder.load host).1 (builder.load host).2 ∧
      (builder.load host).2.get? "B" = some "kept" ∧
      (builder.load host).2.get? "C" = some "2" := by
  intro builder host
  have hw : (Environment.mk .process host.environment).WellNamed := fun _ => by decide
  exact ⟨hw, loads_load builder hw, by decide +kernel, by decide +kernel⟩

/-- Otherwise the load breaks off there, with the variable in front of it written and the one behind
it not. -/
theorem load_refused_halfway :
    let builder := Builder.initial.withFile "e"
    let host : Host := ⟨Volume.empty.put ["e"] (.file "A=1\nB=x\x00y\nC=2".toUTF8.toList),
      .present "/", .ofList [("HOME", "/home/oracle")], none⟩
    (Environment.mk .process host.environment).WellNamed ∧
      (builder.load host).1 = .refused ∧ host.environment.get? "A" = none ∧
      (builder.load host).2.get? "A" = some "1" ∧ (builder.load host).2.get? "C" = none := by
  intro builder host
  have hrefused : (match (builder.load host).1 with
      | .refused => true
      | _ => false) = true := by decide +kernel
  refine ⟨fun _ => by decide, ?_, by decide +kernel, by decide +kernel, by decide +kernel⟩
  split at hrefused
  · assumption
  · cases hrefused

end Builder

end TypedEnv
