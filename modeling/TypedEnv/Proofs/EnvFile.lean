import TypedEnv.Builder
import TypedEnv.Proofs.Dict
import TypedEnv.Proofs.Text

/-!
Writing env files.  Each assignment stands on a line of its own, its value in quotes: double quotes
with line feeds written as a backslash and an `n`, or single quotes with the value as it stands.
Reading the file gives back the assignments, and a parser without a schema their last values.
-/

namespace TypedEnv

open TypedEnv.Text

inductive Quotes where
  | double
  | single

inductive LineEnd where
  | lineFeed
  | carriageReturn
  | both

def escapeBreaks : List Char → List Char
  | [] => []
  | c :: rest => if c = '\n' then '\\' :: 'n' :: escapeBreaks rest else c :: escapeBreaks rest

namespace Quotes

def write : Quotes → List Char → List Char
  | double, value => '"' :: escapeBreaks value ++ ['"']
  | single, value => '\'' :: value ++ ['\'']

def Admits : Quotes → List Char → Prop
  | double, value => '\r' ∉ value ∧ ¬ ['\\', 'n'] <:+: value
  | single, value => '\r' ∉ value ∧ '\n' ∉ value

instance : (quotes : Quotes) → (value : List Char) → Decidable (quotes.Admits value)
  | double, value => inferInstanceAs (Decidable ('\r' ∉ value ∧ ¬ ['\\', 'n'] <:+: value))
  | single, value => inferInstanceAs (Decidable ('\r' ∉ value ∧ '\n' ∉ value))

end Quotes

def LineEnd.text : LineEnd → List Char
  | lineFeed => ['\n']
  | carriageReturn => ['\r']
  | both => ['\r', '\n']

structure WrittenLine where
  assignment : Assignment
  quotes : Quotes
  ending : LineEnd

namespace WrittenLine

def body (line : WrittenLine) : List Char :=
  line.assignment.key.toList ++ '=' :: line.quotes.write line.assignment.value.toList

/-- The key is a word of key characters, and the quotes admit the value. -/
structure Legible (line : WrittenLine) : Prop where
  key_ne_nil : line.assignment.key.toList ≠ []
  key_chars : ∀ c ∈ line.assignment.key.toList, Assignment.isKeyChar c = true
  value : line.quotes.Admits line.assignment.value.toList

end WrittenLine

def writeLines (lines : List WrittenLine) : String :=
  String.ofList (lines.flatMap fun line => line.body ++ line.ending.text)

namespace Assignment

variable {c : Char} {value rest : List Char}

theorem isKeyChar_of_isBlank (h : isBlank c = true) : isKeyChar c = false :=
  eq_false_of_isBlank (by decide +kernel) h

theorem isBlank_of_isKeyChar (h : isKeyChar c = true) : isBlank c = false := by
  rw [← Bool.not_eq_true]
  intro hblank
  rw [isKeyChar_of_isBlank hblank] at h
  cases h

theorem isLineEnd_of_not_blank (h : isBlank c = false) : isLineEnd c = false := by
  rw [← Bool.not_eq_true]
  intro hend
  rw [isLineEnd, Bool.or_eq_true, beq_iff_eq, beq_iff_eq] at hend
  rcases hend with rfl | rfl
  · exact absurd h (by decide)
  · exact absurd h (by decide)

theorem isLineEnd_of_isKeyChar (h : isKeyChar c = true) : isLineEnd c = false :=
  isLineEnd_of_not_blank (isBlank_of_isKeyChar h)

theorem escapeBreaks_cons_of_ne (h : c ≠ '\n') :
    escapeBreaks (c :: rest) = c :: escapeBreaks rest := by
  rw [escapeBreaks, if_neg h]

theorem head?_of_head?_escapeBreaks (h : (escapeBreaks value).head? = some 'n') :
    value.head? = some 'n' := by
  cases value with
  | nil => cases h
  | cons c rest =>
    by_cases hc : c = '\n'
    · rw [escapeBreaks, if_pos hc] at h
      cases h
    · rwa [escapeBreaks_cons_of_ne hc] at h

theorem expandBreaks_cons {text : List Char} (h : c = '\\' → text.head? ≠ some 'n') :
    expandBreaks (c :: text) = c :: expandBreaks text := by
  rw [expandBreaks]
  intro tail hslash htext
  apply h hslash
  rw [htext]
  rfl

theorem expandBreaks_escapeBreaks (h : ¬ ['\\', 'n'] <:+: value) :
    expandBreaks (escapeBreaks value) = value := by
  induction value with
  | nil => rfl
  | cons c rest ih =>
    have hrest : ¬ ['\\', 'n'] <:+: rest := fun hin => h (List.infix_cons hin)
    by_cases hc : c = '\n'
    · rw [escapeBreaks, if_pos hc, expandBreaks, ih hrest, hc]
    · rw [escapeBreaks_cons_of_ne hc, expandBreaks_cons, ih hrest]
      -- An `n` after a backslash would stand in the value itself, as escaping puts none in front.
      intro hslash hn
      obtain ⟨tail, htail⟩ := List.head?_eq_some_iff.1 (head?_of_head?_escapeBreaks hn)
      apply h
      rw [hslash, htail]
      exact ⟨[], tail, rfl⟩

theorem newline_not_mem_escapeBreaks (value : List Char) : '\n' ∉ escapeBreaks value := by
  induction value with
  | nil => exact List.not_mem_nil
  | cons c rest ih =>
    rw [escapeBreaks]
    split
    · simpa using ih
    · next hc => simpa [ih] using Ne.symm hc

theorem mem_of_mem_escapeBreaks (h : c ∈ escapeBreaks value) : c ∈ value ∨ c = '\\' ∨ c = 'n' := by
  induction value with
  | nil => cases h
  | cons d rest ih =>
    rw [escapeBreaks] at h
    split at h
    · rw [List.mem_cons, List.mem_cons] at h
      rcases h with rfl | rfl | h
      · exact Or.inr (Or.inl rfl)
      · exact Or.inr (Or.inr rfl)
      · exact (ih h).imp_left (List.mem_cons_of_mem d)
    · rw [List.mem_cons] at h
      rcases h with rfl | h
      · exact Or.inl List.mem_cons_self
      · exact (ih h).imp_left (List.mem_cons_of_mem d)

theorem not_lineEnd_of_mem_escapeBreaks (h : '\r' ∉ value) (hc : c ∈ escapeBreaks value) :
    isLineEnd c = false := by
  rw [isLineEnd, Bool.or_eq_false_iff, beq_eq_false_iff_ne, beq_eq_false_iff_ne]
  refine ⟨?_, ?_⟩
  · rintro rfl
    exact newline_not_mem_escapeBreaks value hc
  · rintro rfl
    rcases mem_of_mem_escapeBreaks hc with hmem | hslash | hn
    · exact h hmem
    · cases hslash
    · cases hn

theorem unquote_write {quotes : Quotes} (h : quotes.Admits value) :
    unquote (quotes.write value) = value := by
  cases quotes with
  | double =>
    have hinner : enclosed? '"' (Quotes.double.write value) = some (escapeBreaks value) :=
      enclosed?_eq_some_iff.2 rfl
    rw [unquote, hinner]
    exact expandBreaks_escapeBreaks h.2
  | single =>
    have hinner : enclosed? '\'' (Quotes.single.write value) = some value :=
      enclosed?_eq_some_iff.2 rfl
    have hdouble : enclosed? '"' (Quotes.single.write value) = none := by
      rw [Quotes.write, List.cons_append, enclosed?, if_neg]
      exact fun hmarks => absurd hmarks.1 (by decide)
    rw [unquote, hdouble, hinner, Option.getD_some]

theorem trim_write (quotes : Quotes) (value : List Char) :
    trim (quotes.write value) = quotes.write value := by
  cases quotes with
  | double => exact trim_enclosed (by decide)
  | single => exact trim_enclosed (by decide)

theorem not_lineEnd_of_mem_write {quotes : Quotes} (h : quotes.Admits value)
    (hc : c ∈ quotes.write value) : isLineEnd c = false := by
  cases quotes with
  | double =>
    rw [Quotes.write, List.mem_append, List.mem_cons, List.mem_singleton] at hc
    rcases hc with (rfl | hc) | rfl
    · decide
    · exact not_lineEnd_of_mem_escapeBreaks h.1 hc
    · decide
  | single =>
    rw [Quotes.write, List.mem_append, List.mem_cons, List.mem_singleton] at hc
    rcases hc with (rfl | hc) | rfl
    · decide
    · rw [isLineEnd, Bool.or_eq_false_iff, beq_eq_false_iff_ne, beq_eq_false_iff_ne]
      refine ⟨?_, ?_⟩
      · rintro rfl
        exact h.2 hc
      · rintro rfl
        exact h.1 hc
    · decide

theorem value?_write {quotes : Quotes} (h : quotes.Admits value) :
    value? (quotes.write value) = some value := by
  rw [value?, trim_write, unquote_write h, if_neg]
  rintro (hhead | hbreak)
  · cases quotes with
    | double => cases hhead
    | single => cases hhead
  · exact absurd (not_lineEnd_of_mem_write h hbreak) (by decide)

theorem ofLine?_key {key : List Char} (hne : key ≠ []) (hkey : ∀ c ∈ key, isKeyChar c = true)
    (rest : List Char) :
    ofLine? (key ++ '=' :: rest) =
      (value? rest).map fun value => ⟨String.ofList key, String.ofList value⟩ := by
  have hstart : trimStart (key ++ '=' :: rest) = key ++ '=' :: rest := by
    cases key with
    | nil => exact absurd rfl hne
    | cons c tail => exact trimStart_cons (isBlank_of_isKeyChar (hkey c List.mem_cons_self))
  have hhead : ∀ c ∈ ('=' :: rest).head?, isKeyChar c = false := by
    rintro c ⟨⟩
    decide
  have hafter : trimStart ('=' :: rest) = '=' :: rest := trimStart_cons (by decide)
  rw [ofLine?, hstart, takeWhile_append_of_head hkey hhead, dropWhile_append_of_head hkey hhead,
    hafter]
  exact if_neg hne

theorem ofLine?_body {line : WrittenLine} (h : line.Legible) :
    ofLine? line.body = some line.assignment := by
  rw [WrittenLine.body, ofLine?_key h.key_ne_nil h.key_chars, value?_write h.value, Option.map_some,
    String.ofList_toList, String.ofList_toList]

theorem not_lineEnd_of_mem_body {line : WrittenLine} (h : line.Legible) (hc : c ∈ line.body) :
    isLineEnd c = false := by
  rw [WrittenLine.body, List.mem_append, List.mem_cons] at hc
  rcases hc with hkey | rfl | hvalue
  · exact isLineEnd_of_isKeyChar (h.key_chars c hkey)
  · decide
  · exact not_lineEnd_of_mem_write h.value hvalue

def read (text : List Char) : List Assignment := (splitWhere isLineEnd text).filterMap ofLine?

theorem ofText_ofList (text : List Char) : ofText (.ofList text) = read text := by
  rw [ofText, String.toList_ofList, read]

theorem read_nil : read [] = [] := rfl

theorem read_append_cons (h : isLineEnd c = true) (front rest : List Char) :
    read (front ++ c :: rest) = read front ++ read rest := by
  rw [read, splitWhere_append_cons h, List.filterMap_append]
  rfl

/-- A line end cuts a text in two, however it is written. -/
theorem read_append_ending (ending : LineEnd) (front rest : List Char) :
    read (front ++ (ending.text ++ rest)) = read front ++ read rest := by
  cases ending with
  | lineFeed => exact read_append_cons (by decide) front rest
  | carriageReturn => exact read_append_cons (by decide) front rest
  | both =>
    have hsecond : read ('\n' :: rest) = read rest := read_append_cons (by decide) [] rest
    have hfirst := read_append_cons (c := '\r') (by decide) front ('\n' :: rest)
    rw [hsecond] at hfirst
    exact hfirst

theorem read_line {line : WrittenLine} (h : line.Legible) (rest : List Char) :
    read (line.body ++ line.ending.text ++ rest) = line.assignment :: read rest := by
  have hbody : read line.body = [line.assignment] := by
    rw [read, splitWhere_of_forall fun c hc => not_lineEnd_of_mem_body h hc,
      List.filterMap_cons_some (ofLine?_body h), List.filterMap_nil]
  rw [List.append_assoc, read_append_ending, hbody, List.singleton_append]

theorem ofText_writeLines {lines : List WrittenLine} (h : ∀ line ∈ lines, line.Legible) :
    ofText (writeLines lines) = lines.map WrittenLine.assignment := by
  rw [writeLines, ofText_ofList]
  induction lines with
  | nil => rfl
  | cons line later ih =>
    rw [List.flatMap_cons, read_line (h line List.mem_cons_self), List.map_cons,
      ih fun next hn => h next (List.mem_cons_of_mem line hn)]

end Assignment

namespace Schema

variable {schema : Schema} {registry : Registry}

theorem evaluateFrom_of_isEmpty (h : schema.isEmpty = true) (parsed : Parsed)
    (assignments : List Assignment) :
    schema.evaluateFrom parsed assignments registry =
      (.ok ⟨(assignments.map fun a => (a.key, Document.string a.value)).foldl
        (fun dict entry => dict.insert entry.1 entry.2) parsed.values⟩, registry) := by
  induction assignments generalizing parsed with
  | nil => rfl
  | cons a later ih =>
    rw [evaluateFrom, judge, if_pos h]
    exact ih _

theorem evaluate_of_isEmpty (h : schema.isEmpty = true) (assignments : List Assignment) :
    schema.evaluate assignments registry =
      (.ok ⟨.ofList (assignments.map fun a => (a.key, Document.string a.value))⟩, registry) :=
  evaluateFrom_of_isEmpty h .empty assignments

end Schema

/-- What was written is read back: the assignments in their order, and by a parser without a schema
the last value of every key. -/
theorem parse_writeLines {lines : List WrittenLine} (h : ∀ line ∈ lines, line.Legible) :
    Assignment.ofText (writeLines lines) = lines.map WrittenLine.assignment ∧
    ∀ parser : Parser, parser.schema.isEmpty = true →
      ∃ parsed, parser.parseText (writeLines lines) = (.ok parsed, parser) ∧
        ∀ key, parsed.get? key = (lines.reverse.find? (·.assignment.key == key)).map fun line =>
          .string line.assignment.value := by
  have hread := Assignment.ofText_writeLines h
  refine ⟨hread, fun parser hs => ?_⟩
  refine ⟨⟨.ofList ((lines.map WrittenLine.assignment).map fun a => (a.key, .string a.value))⟩,
    ?_, fun key => ?_⟩
  · rw [Parser.parseText, hread, Schema.evaluate_of_isEmpty hs]
  · rw [Parsed.get?, Dict.get?_ofList, List.map_map, ← List.map_reverse, List.find?_map,
      Option.map_map]
    rfl

theorem parse_writeLines_two :
    let lines : List WrittenLine :=
      [⟨⟨"app.name", "#\"a'\\\n"⟩, .double, .both⟩, ⟨⟨"app.name", " "⟩, .single, .carriageReturn⟩]
    let text := "app.name=\"#\"a'\\\\n\"\r\napp.name=' '\r"
    let parser : Parser := ⟨".env", .empty, .empty, ", ", false⟩
    (∀ line ∈ lines, line.Legible) ∧ parser.schema.isEmpty = true ∧
      Assignment.ofText text = lines.map WrittenLine.assignment ∧
      ∃ parsed, parser.parseText text = (.ok parsed, parser) ∧
        parsed.get? "app.name" = some (.string " ") := by
  intro lines text parser
  have hkey : "app.name".toList.all Assignment.isKeyChar = true := by decide
  have hlegible : ∀ line ∈ lines, line.Legible := by
    intro line hline
    rcases List.mem_cons.1 hline with rfl | hline
    · exact ⟨by decide, List.all_eq_true.1 hkey, by decide⟩
    · cases List.mem_singleton.1 hline
      exact ⟨by decide, List.all_eq_true.1 hkey, by decide⟩
  obtain ⟨hread, hparse⟩ := parse_writeLines hlegible
  obtain ⟨parsed, hparsed, hget⟩ := hparse parser rfl
  exact ⟨hlegible, rfl, hread, parsed, hparsed, (hget "app.name").trans rfl⟩

end TypedEnv
