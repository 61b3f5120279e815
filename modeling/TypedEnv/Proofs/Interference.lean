import Mathlib.Logic.Relation
import TypedEnv.Proofs.EnvFile
import TypedEnv.Proofs.Judgement

/-!
Lines do not interfere.  A line that is no assignment, or assigns a key that the schema does not
list, may stand anywhere, and line ends may be written in any way; a parse does not see the
difference.  What a parse makes of a key depends on the assignments of that key and their order
alone, and whether it succeeds on nothing but which assignments there are.
-/

namespace TypedEnv

open TypedEnv.Text

/-- A line that asks nothing of a schema. -/
structure Passive (schema : Schema) (line : List Char) : Prop where
  one_line : ∀ c ∈ line, Assignment.isLineEnd c = false
  unlisted : ∀ a, Assignment.ofLine? line = some a → schema.get? a.key = none

/-- Changes of a text that do not matter: a passive line where a line starts or ends, and another
line end. -/
inductive Edit (schema : Schema) : String → String → Prop
  | before {front rest line : List Char} (ending : LineEnd) :
      (∀ c ∈ front.getLast?, Assignment.isLineEnd c = true) → Passive schema line →
      Edit schema (.ofList (front ++ rest)) (.ofList (front ++ (line ++ (ending.text ++ rest))))
  | after {front rest line : List Char} (ending : LineEnd) :
      (∀ c ∈ rest.head?, Assignment.isLineEnd c = true) → Passive schema line →
      Edit schema (.ofList (front ++ rest)) (.ofList (front ++ (ending.text ++ (line ++ rest))))
  | rewrite {front rest : List Char} (ending other : LineEnd) :
      Edit schema (.ofList (front ++ (ending.text ++ rest)))
        (.ofList (front ++ (other.text ++ rest)))

namespace Assignment

variable {front rest : List Char}

theorem read_append_of_getLast? (h : ∀ c ∈ front.getLast?, isLineEnd c = true)
    (rest : List Char) : read (front ++ rest) = read front ++ read rest := by
  cases hlast : front.getLast? with
  | none =>
    rw [List.getLast?_eq_none_iff.1 hlast]
    rfl
  | some c =>
    obtain ⟨init, rfl⟩ := List.getLast?_eq_some_iff.1 hlast
    have hc := h c hlast
    rw [read_append_cons hc init [], read_nil, List.append_nil, List.append_assoc,
      List.singleton_append, read_append_cons hc]

theorem read_append_of_head? (h : ∀ c ∈ rest.head?, isLineEnd c = true) (front : List Char) :
    read (front ++ rest) = read front ++ read rest := by
  cases rest with
  | nil => rw [List.append_nil, read_nil, List.append_nil]
  | cons c rest =>
    have hc := h c rfl
    have hrest : read (c :: rest) = read rest := read_append_cons hc [] rest
    rw [read_append_cons hc, hrest]

end Assignment

namespace Schema

variable {schema : Schema} {registry : Registry} {text other : String} {line : List Char}

def lists (schema : Schema) (a : Assignment) : Bool := (schema.get? a.key).isSome

theorem filter_read_of_passive (h : Passive schema line) :
    (Assignment.read line).filter schema.lists = [] := by
  rw [Assignment.read, splitWhere_of_forall h.one_line]
  cases hline : Assignment.ofLine? line with
  | none => rw [List.filterMap_cons_none hline, List.filterMap_nil, List.filter_nil]
  | some a =>
    have hunlisted : schema.lists a = false := by
      rw [lists, h.unlisted a hline]
      rfl
    rw [List.filterMap_cons_some hline, List.filterMap_nil, List.filter_cons, hunlisted]
    rfl

theorem filter_ofText_of_edit (h : Edit schema text other) :
    (Assignment.ofText other).filter schema.lists =
      (Assignment.ofText text).filter schema.lists := by
  cases h with
  | @before front rest line ending hfront hline =>
    simp only [Assignment.ofText_ofList, Assignment.read_append_of_getLast? hfront,
      Assignment.read_append_ending, List.filter_append, filter_read_of_passive hline,
      List.nil_append]
  | @after front rest line ending hrest hline =>
    simp only [Assignment.ofText_ofList, Assignment.read_append_of_head? hrest,
      Assignment.read_append_ending, List.filter_append, filter_read_of_passive hline,
      List.nil_append]
  | rewrite ending other => simp only [Assignment.ofText_ofList, Assignment.read_append_ending]

theorem judge_of_not_lists (h : schema.isEmpty = false) {a : Assignment}
    (ha : schema.lists a = false) : schema.judge a registry = (.skip, registry) := by
  have hnone : schema.get? a.key = none :=
    Option.isNone_iff_eq_none.1 (Option.isSome_eq_false_iff.1 ha)
  rw [judge, h, if_neg Bool.false_ne_true, hnone]

/-- Assignments that the schema does not list leave neither a value nor a union behind. -/
theorem evaluateFrom_filter (h : schema.isEmpty = false) (parsed : Parsed)
    (assignments : List Assignment) :
    schema.evaluateFrom parsed (assignments.filter schema.lists) registry =
      schema.evaluateFrom parsed assignments registry := by
  induction assignments generalizing parsed registry with
  | nil => rfl
  | cons a later ih =>
    cases ha : schema.lists a with
    | false =>
      rw [List.filter_cons_of_neg (by simp [ha]), ih, evaluateFrom, judge_of_not_lists h ha]
    | true =>
      rw [List.filter_cons_of_pos ha, evaluateFrom, evaluateFrom]
      cases schema.judge a registry with
      | mk outcome after =>
        cases outcome with
        | store value => exact ih _
        | skip => exact ih _
        | fatal error => rfl

theorem evaluate_edited (h : schema.isEmpty = false)
    (hedits : Relation.EqvGen (Edit schema) text other) :
    schema.evaluate (Assignment.ofText other) registry =
      schema.evaluate (Assignment.ofText text) registry := by
  have hfilter : (Assignment.ofText other).filter schema.lists =
      (Assignment.ofText text).filter schema.lists := by
    induction hedits with
    | rel _ _ hedit => exact filter_ofText_of_edit hedit
    | refl => rfl
    | symm _ _ _ ih => exact ih.symm
    | trans _ _ _ _ _ ihfirst ihsecond => exact ihsecond.trans ihfirst
  rw [evaluate, evaluate, ← evaluateFrom_filter h, hfilter, evaluateFrom_filter h]

end Schema

/-- Texts that give each key the same assignments in the same order, as when lines of different keys
change places. -/
def Assignment.SameForKeys (text other : String) : Prop :=
  ∀ key, (ofText other).filter (·.key == key) = (ofText text).filter (·.key == key)

def Assignment.keepOnly (key text : String) : String :=
  .ofList (['\n'].intercalate ((splitWhere isLineEnd text.toList).filter fun line =>
    (ofLine? line).all (·.key == key)))

theorem Assignment.read_intercalate {lines : List (List Char)}
    (h : ∀ line ∈ lines, ∀ c ∈ line, isLineEnd c = false) :
    read (['\n'].intercalate lines) = lines.filterMap ofLine? := by
  induction lines with
  | nil => rfl
  | cons line later ih =>
    have hline := h line List.mem_cons_self
    cases later with
    | nil => rw [List.intercalate_singleton, read, splitWhere_of_forall hline]
    | cons next later =>
      rw [List.intercalate_cons_of_ne_nil (List.cons_ne_nil _ _), List.append_assoc,
        List.singleton_append, read, splitWhere_append hline (by decide)]
      have hlater := ih fun piece hp => h piece (List.mem_cons_of_mem line hp)
      rw [read] at hlater
      rw [List.filterMap_cons, List.filterMap_cons, hlater]

theorem Assignment.ofText_keepOnly (key text : String) :
    ofText (keepOnly key text) = (ofText text).filter (·.key == key) := by
  rw [keepOnly, ofText_ofList, read_intercalate, ofText, List.filter_filterMap,
    List.filterMap_filter]
  · congr 1
    funext line
    cases ofLine? line with
    | none => rfl
    | some a => simp [Option.filter]
  · intro line hline c hc
    exact eq_false_of_mem_splitWhere (List.mem_filter.1 hline).1 hc

namespace Schema

variable {schema : Schema} {registry : Registry} {assignments others : List Assignment}

theorem findSome?_filter_key {β : Type} (found : Assignment → Option β) (key : String)
    (assignments : List Assignment) :
    (assignments.filter (·.key == key)).findSome? found =
      assignments.findSome? fun a => if a.key = key then found a else none := by
  induction assignments with
  | nil => rfl
  | cons a later ih =>
    by_cases hkey : a.key = key
    · rw [List.filter_cons, if_pos (beq_iff_eq.2 hkey), List.findSome?_cons, List.findSome?_cons,
        ih, if_pos hkey]
    · rw [List.filter_cons, if_neg (mt beq_iff_eq.1 hkey), List.findSome?_cons, ih, if_neg hkey]

theorem evaluate_eq_ok_iff (h : registry.Grounded) {parsed : Parsed} :
    (schema.evaluate assignments registry).1 = .ok parsed ↔
      (∀ a ∈ assignments, (schema.judge a registry).1.fatal? = none) ∧
        ∀ key, parsed.get? key = (assignments.filter (·.key == key)).reverse.findSome? fun a =>
          (schema.judge a registry).1.stored? := by
  have hvalues : ∀ key, (Dict.ofList (assignments.filterMap fun a =>
      (schema.judge a registry).1.stored?.map (a.key, ·))).get? key =
        (assignments.filter (·.key == key)).reverse.findSome? fun a =>
          (schema.judge a registry).1.stored? := by
    intro key
    rw [Dict.get?_ofList, ← List.filterMap_reverse, map_find?_filterMap, ← List.filter_reverse,
      findSome?_filter_key]
  rw [evaluate_fst h, ← List.findSome?_eq_none_iff]
  cases assignments.findSome? fun a => (schema.judge a registry).1.fatal? with
  | some error => simp
  | none =>
    constructor
    · rintro ⟨⟩
      exact ⟨rfl, hvalues⟩
    · rintro ⟨_, hget⟩
      have hentries : parsed.values = _ := Dict.ext_get? fun key =>
        (hget key).trans (hvalues key).symm
      rw [← hentries]

theorem evaluate_eq_ok_iff_of_keys (h : registry.Grounded)
    (hkeys : ∀ key, others.filter (·.key == key) = assignments.filter (·.key == key))
    (parsed : Parsed) :
    (schema.evaluate others registry).1 = .ok parsed ↔
      (schema.evaluate assignments registry).1 = .ok parsed := by
  have hmem : ∀ a, a ∈ others ↔ a ∈ assignments := by
    intro a
    have hown := congrArg (a ∈ ·) (hkeys a.key)
    simpa using hown
  simp only [evaluate_eq_ok_iff h, hkeys, hmem]

theorem get?_of_evaluate_filter (h : registry.Grounded) {parsed : Parsed}
    (hok : (schema.evaluate assignments registry).1 = .ok parsed) (key : String) :
    ∃ own, (schema.evaluate (assignments.filter (·.key == key)) registry).1 = .ok own ∧
      own.get? key = parsed.get? key := by
  obtain ⟨hsound, hget⟩ := (evaluate_eq_ok_iff h).1 hok
  obtain ⟨own, hown⟩ : ∃ own, (schema.evaluate (assignments.filter (·.key == key)) registry).1 =
      .ok own := by
    rw [exists_evaluate_eq_ok_iff h]
    intro a ha error hfatal
    have hnone := hsound a (List.mem_filter.1 ha).1
    rw [(judged_iff h).1 hfatal] at hnone
    cases hnone
  refine ⟨own, hown, ?_⟩
  rw [((evaluate_eq_ok_iff h).1 hown).2, hget, List.filter_filter]
  simp only [Bool.and_self]

end Schema

/-- A parse does not see lines that its schema does not ask for, nor how lines end: the result is
the same, and so is the parser afterwards.  Lines of different keys may change places, and the entry
of a key is what it would be without the assignments of other keys. -/
theorem Parser.parseText_undisturbed {parser : Parser} (h : parser.registry.Grounded)
    (hschema : parser.schema.isEmpty = false) (text : String) :
    (∀ other, Relation.EqvGen (Edit parser.schema) text other →
      parser.parseText other = parser.parseText text) ∧
    (∀ other, Assignment.SameForKeys text other → ∀ parsed,
      (parser.parseText other).1 = .ok parsed ↔ (parser.parseText text).1 = .ok parsed) ∧
    ∀ parsed, (parser.parseText text).1 = .ok parsed → ∀ key,
      ∃ own, (parser.parseText (Assignment.keepOnly key text)).1 = .ok own ∧
        own.get? key = parsed.get? key := by
  refine ⟨fun other hedits => ?_, fun other hkeys parsed => ?_, fun parsed hok key => ?_⟩
  · rw [parseText, parseText, Schema.evaluate_edited hschema hedits]
  · rw [parseText_fst, parseText_fst]
    exact Schema.evaluate_eq_ok_iff_of_keys h hkeys parsed
  · rw [parseText_fst] at hok
    rw [parseText_fst, Assignment.ofText_keepOnly]
    exact Schema.get?_of_evaluate_filter h hok key

theorem Parser.parseText_undisturbed_edited :
    let schema := (Schema.empty.field "A" (.type "int|boolean")).field "B" (.type "string")
    let parser : Parser := ⟨"/.env", schema, .withBuiltins ", ", ", ", false⟩
    let parsed := (Parsed.empty.insert "A" (.bool true)).insert "B" (.string "x")
    parser.registry.Grounded ∧ parser.schema.isEmpty = false ∧
      (parser.parseText "A=1\nB=x\nA=on").1 = .ok parsed ∧
      Relation.EqvGen (Edit schema) "A=1\nB=x\nA=on" "A=1\r\nC=2\nB=x\nA=on" ∧
      parser.parseText "A=1\r\nC=2\nB=x\nA=on" = parser.parseText "A=1\nB=x\nA=on" ∧
      Assignment.SameForKeys "A=1\nB=x\nA=on" "B=x\nA=1\nA=on" ∧
      (parser.parseText "B=x\nA=1\nA=on").1 = .ok parsed ∧
      ∃ own, (parser.parseText (Assignment.keepOnly "A" "A=1\nB=x\nA=on")).1 = .ok own ∧
        own.get? "A" = some (.bool true) := by
  intro schema parser parsed
  have hg : parser.registry.Grounded := Registry.grounded_withBuiltins ", "
  have hread : Assignment.ofText "A=1\nB=x\nA=on" = [⟨"A", "1"⟩, ⟨"B", "x"⟩, ⟨"A", "on"⟩] := by
    decide +kernel
  have hswapped : Assignment.ofText "B=x\nA=1\nA=on" = [⟨"B", "x"⟩, ⟨"A", "1"⟩, ⟨"A", "on"⟩] := by
    decide +kernel
  have hok : (parser.parseText "A=1\nB=x\nA=on").1 = .ok parsed := by
    rw [parseText_fst, hread]
    rfl
  have hpassive : Passive schema ['C', '=', '2'] := by
    have hline : Assignment.ofLine? ['C', '=', '2'] = some ⟨"C", "2"⟩ := by decide +kernel
    refine ⟨by simp [Assignment.isLineEnd], fun a ha => ?_⟩
    rw [hline] at ha
    cases ha
    rfl
  have hrewrite : Edit schema "A=1\nB=x\nA=on" "A=1\r\nB=x\nA=on" :=
    @Edit.rewrite schema "A=1".toList "B=x\nA=on".toList .lineFeed .both
  have hfront : ∀ c ∈ "A=1\r\n".toList.getLast?, Assignment.isLineEnd c = true := by
    rintro c ⟨⟩
    rfl
  have hinsert : Edit schema "A=1\r\nB=x\nA=on" "A=1\r\nC=2\nB=x\nA=on" :=
    @Edit.before schema "A=1\r\n".toList "B=x\nA=on".toList _ .lineFeed hfront hpassive
  have hedits := Relation.EqvGen.trans _ _ _ (.rel _ _ hrewrite) (.rel _ _ hinsert)
  have hkeys : Assignment.SameForKeys "A=1\nB=x\nA=on" "B=x\nA=1\nA=on" := by
    intro key
    rw [hread, hswapped]
    by_cases ha : "A" = key
    · subst ha
      rfl
    · simp [List.filter_cons, ha]
  obtain ⟨hedited, hreordered, halone⟩ := parseText_undisturbed hg rfl "A=1\nB=x\nA=on"
  obtain ⟨own, hown, hget⟩ := halone parsed hok "A"
  exact ⟨hg, rfl, hok, hedits, hedited _ hedits, hkeys, (hreordered _ hkeys parsed).2 hok, own,
    hown, hget⟩

end TypedEnv
