import TypedEnv.Proofs.Interference
import TypedEnv.Proofs.LineGrammar
import TypedEnv.Proofs.Numeral
import TypedEnv.Proofs.Rendering

/-!
The display of parsed values is an env file.  JSON text that is no string stays on one line, between
brackets or made of word characters, and so is neither trimmed nor taken for a comment or a quoted
value.  A parser without a schema reads the display as the texts that stand in it.
-/

namespace TypedEnv

open TypedEnv.Text

namespace Assignment

variable {text : List Char} {c opening closing : Char}

/-- A text that writes itself on a line. -/
structure Bare (text : List Char) : Prop where
  unbroken : ∀ c ∈ text, isLineEnd c = false
  head : ∀ c ∈ text.head?, isBlank c = false
  last : ∀ c ∈ text.getLast?, isBlank c = false
  no_comment : text.head? ≠ some '#'
  not_double : ¬ Enclosed '"' text
  not_single : ¬ Enclosed '\'' text

theorem Bare.value? (h : Bare text) : value? text = some text := by
  have htrim : trim text = text := trim_of_ends h.head h.last
  rw [value?_eq_some_iff, htrim]
  refine ⟨fun hbreak => ?_, h.no_comment, .plain h.not_double h.not_single⟩
  exact absurd (h.unbroken _ hbreak) (by decide)

theorem Bare.ofLine? (h : Bare text) {key : List Char} (hne : key ≠ [])
    (hkey : ∀ c ∈ key, isKeyChar c = true) :
    ofLine? (key ++ '=' :: text) = some ⟨String.ofList key, String.ofList text⟩ := by
  rw [ofLine?_key hne hkey, h.value?, Option.map_some]

theorem bare_nil : Bare [] := by
  constructor
  case unbroken => exact nofun
  case head => exact nofun
  case last => exact nofun
  case no_comment => exact nofun
  case not_double => exact fun h => absurd h.length (by decide)
  case not_single => exact fun h => absurd h.length (by decide)

theorem bare_singleton (hblank : isBlank c = false) (hcomment : c ≠ '#') : Bare [c] := by
  constructor
  case unbroken =>
    intro d hd
    rw [List.mem_singleton.1 hd]
    exact isLineEnd_of_not_blank hblank
  case head => simpa using hblank
  case last => simpa using hblank
  case no_comment => simpa using hcomment
  case not_double => exact fun h => absurd h.length (by simp)
  case not_single => exact fun h => absurd h.length (by simp)

def isBareChar (c : Char) : Bool := !isBlank c && !(['#', '"', '\''].contains c)

theorem bare_of_ends (hunbroken : ∀ c ∈ text, isLineEnd c = false)
    (hhead : text.head? = some opening) (hlast : text.getLast? = some closing)
    (hopening : isBareChar opening = true) (hclosing : isBlank closing = false) : Bare text := by
  simp only [isBareChar, Bool.and_eq_true, Bool.not_eq_true', List.contains_eq_mem,
    decide_eq_false_iff_not, List.mem_cons, List.not_mem_nil, or_false, not_or] at hopening
  obtain ⟨hblank, hcomment, hdouble, hsingle⟩ := hopening
  constructor
  case unbroken => exact hunbroken
  case head => simpa [hhead] using hblank
  case last => simpa [hlast] using hclosing
  case no_comment => simpa [hhead] using hcomment
  case not_double =>
    intro h
    exact hdouble (Option.some.inj (hhead.symm.trans h.head))
  case not_single =>
    intro h
    exact hsingle (Option.some.inj (hhead.symm.trans h.head))

theorem bare_of_all (h : text.all isBareChar = true) : Bare text := by
  rw [List.all_eq_true] at h
  have hblank : ∀ c ∈ text, isBlank c = false := by
    intro c hc
    have hbare := h c hc
    rw [isBareChar, Bool.and_eq_true] at hbare
    simpa using hbare.1
  by_cases hne : text = []
  · rw [hne]
    exact bare_nil
  · have hunbroken : ∀ c ∈ text, isLineEnd c = false := fun c hc =>
      isLineEnd_of_not_blank (hblank c hc)
    exact bare_of_ends hunbroken (List.head?_eq_some_head hne)
      (List.getLast?_eq_some_getLast hne) (h _ (List.head_mem hne))
      (hblank _ (List.getLast_mem hne))

theorem isBareChar_of_isNumeralChar (h : isNumeralChar c = true) : isBareChar c = true := by
  rw [isNumeralChar, Bool.or_eq_true] at h
  rcases h with hdigit | hmark
  · have hmarks : ['#', '"', '\''].all (!isDigit ·) = true := by decide
    rw [isBareChar, isBlank_of_isDigit hdigit, Bool.not_false, Bool.true_and, Bool.not_eq_true',
      ← Bool.not_eq_true]
    intro hmark
    have hother := List.all_eq_true.1 hmarks c (List.contains_iff_mem.1 hmark)
    rw [hdigit] at hother
    cases hother
  · have hmarks : ['-', '+', '.', 'e'].all isBareChar = true := by decide
    exact List.all_eq_true.1 hmarks c (List.contains_iff_mem.1 hmark)

theorem isLineEnd_of_isAboveControls (h : Json.isAboveControls c = true) :
    isLineEnd c = false := by
  rw [← Bool.not_eq_true]
  intro hend
  rw [isLineEnd, Bool.or_eq_true, beq_iff_eq, beq_iff_eq] at hend
  rcases hend with rfl | rfl <;> exact absurd h (by decide)

end Assignment

namespace Json

open Assignment

theorem getLast?_itemsText (items : List Document) : (itemsText items).getLast? = some ']' := by
  induction items with
  | nil => rfl
  | cons item items ih => rw [itemsText, List.getLast?_append, ih, Option.some_or]

theorem getLast?_membersText (members : List (String × Document)) :
    (membersText members).getLast? = some '\x7d' := by
  induction members with
  | nil => rfl
  | cons member members ih =>
    obtain ⟨key, value⟩ := member
    rw [membersText, List.getLast?_append, ih, Option.some_or]

theorem bare_of_numeral {digits : List Char} (h : digits.all isNumeralChar = true) :
    Bare digits := by
  apply bare_of_all
  rw [List.all_eq_true] at h ⊢
  exact fun c hc => isBareChar_of_isNumeralChar (h c hc)

theorem isLineEnd_of_mem_text (document : Document) :
    ∀ c ∈ text document, isLineEnd c = false := by
  have habove := List.all_eq_true.1 (all_isAboveControls_text document)
  exact fun c hc => isLineEnd_of_isAboveControls (habove c hc)

/-- JSON text that is no string writes itself. -/
theorem bare_text {document : Document} (h : ∀ s, document ≠ .string s) :
    Bare (text document) := by
  have hunbroken := isLineEnd_of_mem_text document
  cases document with
  | null => exact bare_of_all (by decide)
  | bool b => cases b <;> exact bare_of_all (by decide)
  | int n => exact bare_of_numeral (all_isNumeralChar_intText n)
  | float x =>
    rw [text, floatText]
    split
    · next hfinite => exact bare_of_numeral (Notation64.all_isNumeralChar_text _ hfinite)
    · exact bare_of_all (by decide)
  | string s => exact absurd rfl (h s)
  | array items =>
    cases items with
    | nil => exact bare_of_ends hunbroken rfl rfl (by decide) (by decide)
    | cons item items =>
      have hlast : (text (.array (item :: items))).getLast? = some ']' := by
        rw [text, List.getLast?_append, getLast?_itemsText, Option.some_or]
      exact bare_of_ends hunbroken rfl hlast (by decide) (by decide)
  | object members =>
    cases members with
    | nil => exact bare_of_ends hunbroken rfl rfl (by decide) (by decide)
    | cons member members =>
      obtain ⟨key, value⟩ := member
      have hlast : (text (.object ((key, value) :: members))).getLast? = some '\x7d' := by
        rw [text, List.getLast?_append, getLast?_membersText, Option.some_or]
      exact bare_of_ends hunbroken rfl hlast (by decide) (by decide)

end Json

namespace Parsed

variable {parsed : Parsed}

/-- The keys are words, and strings write themselves.  Other values are free. -/
structure Legible (parsed : Parsed) : Prop where
  key_ne_nil : ∀ key ∈ parsed.keys, key.toList ≠ []
  key_chars : ∀ key ∈ parsed.keys, ∀ c ∈ key.toList, Assignment.isKeyChar c = true
  strings : ∀ key s, parsed.get? key = some (.string s) → Assignment.Bare s.toList

def shown (parsed : Parsed) : Parsed := ⟨parsed.values.map fun value => .string value.display⟩

theorem keys_shown (parsed : Parsed) : parsed.shown.keys = parsed.keys :=
  Dict.keys_map _ parsed.values

theorem get?_shown (parsed : Parsed) (key : String) :
    parsed.shown.get? key = (parsed.get? key).map fun value => .string value.display :=
  Dict.get?_map _ parsed.values key

theorem display_shown (parsed : Parsed) : parsed.shown.display = parsed.display := by
  rw [display, display, entries, shown, Dict.map, List.map_map]
  rfl

theorem Legible.bare_display (h : parsed.Legible) {key : String} {value : Document}
    (hvalue : parsed.get? key = some value) : Assignment.Bare value.display.toList := by
  by_cases hstring : ∃ s, value = .string s
  · obtain ⟨s, rfl⟩ := hstring
    exact h.strings key s hvalue
  · rw [not_exists] at hstring
    have hdisplay : value.display = String.ofList (Json.text value) := by
      cases value with
      | string s => exact absurd rfl (hstring s)
      | _ => rfl
    rw [hdisplay, String.toList_ofList]
    exact Json.bare_text hstring

def line (entry : String × Document) : List Char :=
  entry.1.toList ++ '=' :: entry.2.display.toList

theorem toList_display (parsed : Parsed) :
    parsed.display.toList = ['\n'].intercalate (parsed.entries.map line) := by
  rw [display, toList_join, List.map_map]
  congr 2
  funext entry
  simp [line]

theorem Legible.ofLine?_line (h : parsed.Legible) {entry : String × Document}
    (hentry : entry ∈ parsed.entries) :
    Assignment.ofLine? (line entry) = some ⟨entry.1, entry.2.display⟩ := by
  have hkey : entry.1 ∈ parsed.keys := List.mem_map_of_mem hentry
  have hvalue : parsed.get? entry.1 = some entry.2 := Dict.get?_eq_some_iff.2 hentry
  rw [line, (h.bare_display hvalue).ofLine? (h.key_ne_nil _ hkey) (h.key_chars _ hkey),
    String.ofList_toList, String.ofList_toList]

theorem Legible.isLineEnd_of_mem_line (h : parsed.Legible) {entry : String × Document}
    (hentry : entry ∈ parsed.entries) : ∀ c ∈ line entry, Assignment.isLineEnd c = false := by
  have hkey : entry.1 ∈ parsed.keys := List.mem_map_of_mem hentry
  have hvalue : parsed.get? entry.1 = some entry.2 := Dict.get?_eq_some_iff.2 hentry
  intro c hc
  rw [line, List.mem_append, List.mem_cons] at hc
  rcases hc with hc | rfl | hc
  · exact Assignment.isLineEnd_of_isKeyChar (h.key_chars _ hkey c hc)
  · decide
  · exact (h.bare_display hvalue).unbroken c hc

theorem Legible.ofText_display (h : parsed.Legible) :
    Assignment.ofText parsed.display =
      parsed.entries.map fun entry => ⟨entry.1, entry.2.display⟩ := by
  rw [← String.ofList_toList (s := parsed.display), Assignment.ofText_ofList, toList_display,
    Assignment.read_intercalate, List.filterMap_map, ← List.filterMap_eq_map]
  · apply List.filterMap_congr
    intro entry hentry
    exact h.ofLine?_line hentry
  · intro text htext
    obtain ⟨entry, hentry, rfl⟩ := List.mem_map.1 htext
    exact h.isLineEnd_of_mem_line hentry

end Parsed

/-- A parser without a schema reads the display of legible values as the texts that stand in it, and
shows these in the same way. -/
theorem Parser.parseText_display {parser : Parser} {parsed : Parsed} (h : parsed.Legible)
    (hschema : parser.schema.isEmpty = true) :
    ∃ back, parser.parseText parsed.display = (.ok back, parser) ∧ back.keys = parsed.keys ∧
      (∀ key, back.get? key = (parsed.get? key).map fun value => .string value.display) ∧
      back.display = parsed.display := by
  refine ⟨parsed.shown, ?_, parsed.keys_shown, parsed.get?_shown, parsed.display_shown⟩
  have hentries : (parsed.entries.map fun entry => (⟨entry.1, entry.2.display⟩ : Assignment)).map
      (fun a => (a.key, Document.string a.value)) = parsed.shown.entries := by
    rw [List.map_map]
    rfl
  rw [parseText, h.ofText_display, Schema.evaluate_of_isEmpty hschema, hentries]
  have hback : Dict.ofList parsed.shown.entries = parsed.shown.values :=
    Dict.ofList_entries parsed.shown.values
  rw [hback]

theorem Parser.parseText_display_nested :
    let items : Document := .array [.string "a\n# 'b'", .object [("\"", .null)]]
    let parsed : Parsed :=
      ⟨⟨[("empty", .string ""), ("mark", .string "\""), ("tree", items)], by decide +kernel⟩⟩
    let parser : Parser := ⟨".env", .empty, .empty, ", ", false⟩
    let text := "empty=\nmark=\"\ntree=[\"a\\n# 'b'\",\x7b\"\\\"\":null\x7d]"
    parsed.Legible ∧ parser.schema.isEmpty = true ∧ parsed.display = text ∧
      ∃ back, parser.parseText text = (.ok back, parser) ∧ back.keys = ["empty", "mark", "tree"] ∧
        back.get? "empty" = some (.string "") ∧ back.get? "mark" = some (.string "\"") ∧
        back.get? "tree" = some (.string items.display) := by
  intro items parsed parser text
  have hkeys : parsed.keys = ["empty", "mark", "tree"] := rfl
  have hlegible : parsed.Legible := by
    constructor
    case key_ne_nil =>
      rw [hkeys]
      decide
    case key_chars =>
      have hchars : parsed.keys.all (·.toList.all Assignment.isKeyChar) = true := by
        rw [hkeys]
        decide +kernel
      intro key hkey
      exact List.all_eq_true.1 (List.all_eq_true.1 hchars key hkey)
    case strings =>
      intro key s hget
      have hentry : (key, Document.string s) ∈ parsed.entries := Dict.get?_eq_some_iff.1 hget
      rcases List.mem_cons.1 hentry with hempty | hlater
      · cases hempty
        exact Assignment.bare_nil
      · rcases List.mem_cons.1 hlater with hmark | hlast
        · cases hmark
          exact Assignment.bare_singleton (by decide) (by decide)
        · have harray : Document.string s = .array _ :=
            congrArg Prod.snd (List.mem_singleton.1 hlast)
          cases harray
  have hdisplay : parsed.display = text := by
    decide +kernel
  have hschema : parser.schema.isEmpty = true := rfl
  obtain ⟨back, hparse, hback, hget, _⟩ := parseText_display hlegible hschema
  rw [hdisplay] at hparse
  exact ⟨hlegible, hschema, hdisplay, back, hparse, hback, hget "empty", hget "mark", hget "tree"⟩

end TypedEnv
