import TypedEnv.Toml.Numeral
import TypedEnv.Toml.Table

/-!
Reading TOML texts.  A text is read line by line into a tree of tables; why a text is not well
written is not told.
-/

namespace TypedEnv.Toml

open TypedEnv.Text

abbrev ValueReader := (text : List Char) → Option (Step Value text)

theorem length_lt_of_skipLines_eq_cons {text rest : List Char} {c : Char}
    (h : skipLines text = c :: rest) : rest.length + 1 ≤ text.length := by
  have := length_skipLines_le text
  rw [h] at this
  exact this

/-- The items of a list up to its closing bracket.  A comma may follow the last one. -/
def items? (value : ValueReader) (text : List Char) : Option (Step (List Value) text) :=
  match h : skipLines text with
  | [] => none
  | c :: rest =>
    if c = ']' then some ⟨[], rest, length_lt_of_skipLines_eq_cons h⟩
    else do
      let item ← value (c :: rest)
      have hitem : item.rest.length < text.length :=
        Nat.lt_of_lt_of_le item.shorter (length_lt_of_skipLines_eq_cons h)
      match hafter : skipLines item.rest with
      | ']' :: after =>
        return ⟨[item.value], after,
          Nat.lt_trans (length_lt_of_skipLines_eq_cons hafter) hitem⟩
      | ',' :: after =>
        have hnext : after.length + 1 ≤ text.length :=
          Nat.lt_trans (length_lt_of_skipLines_eq_cons hafter) hitem
        let tail ← items? value after
        return (tail.map (item.value :: ·)).widen (Nat.le_of_lt hnext)
      | _ => none
termination_by text.length
decreasing_by exact hnext

section Tables

variable (edition : Edition)

def pair? (inBraces : Bool) (value : ValueReader) (text : List Char) :
    Option (Step ((List String × String) × Value) text) := do
  let key ← key? edition text
  match h : skipGap edition inBraces key.rest with
  | '=' :: rest =>
    let item ← value (skipGap edition inBraces rest)
    return (item.map fun item => (key.value, item)).widen <|
      Nat.le_trans (length_skipGap_le edition inBraces rest) <|
        Nat.le_of_lt (Nat.lt_trans (length_lt_of_skipGap_eq_cons h) key.shorter)
  | _ => none

def closedAfterComma? (text : List Char) : Option (List Char) :=
  match edition.openBraces, skipGap edition true text with
  | true, '\x7d' :: rest => some rest
  | _, _ => none

theorem length_lt_of_closedAfterComma? {edition : Edition} {text rest : List Char}
    (h : closedAfterComma? edition text = some rest) : rest.length < text.length := by
  unfold closedAfterComma? at h
  have hgap := length_skipGap_le edition true text
  split at h
  · next hskip =>
    cases h
    rw [hskip, List.length_cons] at hgap
    omega
  · cases h

def pairs? (value : ValueReader) (text : List Char) :
    Option (Step (List ((List String × String) × Value)) text) := do
  let pair ← pair? edition true value (skipGap edition true text)
  have hpair := Nat.lt_of_lt_of_le pair.shorter (length_skipGap_le edition true text)
  match h : skipGap edition true pair.rest with
  | '\x7d' :: rest =>
    return ⟨[pair.value], rest, Nat.lt_trans (length_lt_of_skipGap_eq_cons h) hpair⟩
  | ',' :: rest =>
    have hrest := Nat.lt_trans (length_lt_of_skipGap_eq_cons h) hpair
    match hclosed : closedAfterComma? edition rest with
    | some after =>
      return ⟨[pair.value], after, Nat.lt_trans (length_lt_of_closedAfterComma? hclosed) hrest⟩
    | none =>
      let tail ← pairs? value rest
      return (tail.map (pair.value :: ·)).widen (Nat.le_of_lt hrest)
  | _ => none
termination_by text.length
decreasing_by exact hrest

def inlineTable? (value : ValueReader) (text : List Char) : Option (Step Value text) :=
  match h : skipGap edition true text with
  | '\x7d' :: rest => some ⟨.table [], rest, length_lt_of_skipGap_eq_cons h⟩
  | _ => do
    let pairs ← pairs? edition value text
    let table ← tableOfPairs pairs.value
    return ⟨table, pairs.rest, pairs.shorter⟩

def plainValue? (text : List Char) : Option (Value × List Char) :=
  match text with
  | 't' :: 'r' :: 'u' :: 'e' :: rest => some (.boolean true, rest)
  | 'f' :: 'a' :: 'l' :: 's' :: 'e' :: rest => some (.boolean false, rest)
  | _ => numeral? edition text

theorem length_lt_of_plainValue? {edition : Edition} {text rest : List Char} {value : Value}
    (h : plainValue? edition text = some (value, rest)) : rest.length < text.length := by
  unfold plainValue? at h
  split at h
  · cases h
    simp only [List.length_cons]
    omega
  · cases h
    simp only [List.length_cons]
    omega
  · exact length_lt_of_numeral? h

def plainStep? (text : List Char) : Option (Step Value text) :=
  match h : plainValue? edition text with
  | some (value, rest) => some ⟨value, rest, length_lt_of_plainValue? h⟩
  | none => none

/-- A value in which `levels` lists and tables in braces may stand in one another. -/
def value? : Nat → ValueReader
  | levels, text =>
    match text with
    | [] => none
    | c :: rest =>
      if c = '"' ∨ c = '\'' then (string? edition (c :: rest)).map (·.map .string)
      else if c = '[' ∨ c = '\x7b' then
        match levels with
        | 0 => none
        | levels + 1 =>
          if c = '[' then
            (items? (value? levels) rest).map fun step => (step.map .array).behind c
          else (inlineTable? edition (value? levels) rest).map (·.behind c)
      else plainStep? edition (c :: rest)

end Tables

/-- The tables read so far, and the path of the one that lines add to. -/
structure Draft where
  members : Members
  path : List String

def Draft.empty : Draft := ⟨[], []⟩

def Draft.addValue (draft : Draft) (path : List String) (key : String) (value : Value) :
    Option Draft :=
  (Members.atPath (Members.addValue true path key value) draft.path draft.members).map
    fun members => { draft with members }

def Draft.openHeader (draft : Draft) (element : Bool) (path : List String) (name : String) :
    Option Draft :=
  (Members.atPath (if element then Members.openElement name else Members.openTable name) path
    draft.members).map fun members => ⟨members, path ++ [name]⟩

def closed? (element : Bool) (text : List Char) : Option (List Char) :=
  match element, text with
  | false, ']' :: rest => some rest
  | true, ']' :: ']' :: rest => some rest
  | _, _ => none

theorem length_lt_of_closed? {element : Bool} {text rest : List Char}
    (h : closed? element text = some rest) : rest.length < text.length := by
  unfold closed? at h
  split at h
  · cases h
    simp only [List.length_cons]
    omega
  · cases h
    simp only [List.length_cons]
    omega
  · cases h

section Lines

variable (edition : Edition)

def header? (draft : Draft) (element : Bool) (text : List Char) : Option (Step Draft text) := do
  let key ← key? edition text
  match hclosed : closed? element key.rest with
  | none => none
  | some after =>
    match hnext : nextLine? after with
    | none => none
    | some next =>
      let draft ← draft.openHeader element key.value.1 key.value.2
      return ⟨draft, next, by
        have := key.shorter
        have := length_lt_of_closed? hclosed
        have := length_le_of_nextLine? hnext
        omega⟩

def line? (draft : Draft) (text : List Char) : Option (Step Draft text) :=
  match text with
  | '[' :: '[' :: rest =>
    (header? edition draft true rest).map fun step => (step.behind '[').behind '['
  | '[' :: rest => (header? edition draft false rest).map (·.behind '[')
  | text => do
    let pair ← pair? edition false (value? edition edition.levels) text
    match h : nextLine? pair.rest with
    | none => none
    | some next =>
      let draft ← draft.addValue pair.value.1.1 pair.value.1.2 pair.value.2
      return ⟨draft, next, Nat.lt_of_le_of_lt (length_le_of_nextLine? h) pair.shorter⟩

def lines? (draft : Draft) (text : List Char) : Option Draft :=
  have hskip := length_skipLines_le text
  match h : skipLines text with
  | [] => some draft
  | c :: rest =>
    if c = '#' then
      if skipComment (c :: rest) = [] then some draft else none
    else do
      let step ← line? edition draft (c :: rest)
      have : step.rest.length < text.length := by
        have := step.shorter
        rw [h] at hskip
        omega
      lines? step.value step.rest
termination_by text.length

end Lines

def parse (edition : Edition) (text : List Char) : Option (List (String × Value)) :=
  let text := match text with
    | '\ufeff' :: rest => rest
    | _ => text
  (lines? edition .empty text).map fun draft => membersToValues draft.members

end TypedEnv.Toml
