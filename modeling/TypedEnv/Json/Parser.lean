import TypedEnv.Json.Number
import TypedEnv.Json.Printer
import TypedEnv.Text.Visible

/-!
Reading JSON texts.  A text is one value with blanks around it; of several members with one key
the last one stays; values nest at most 127 levels deep.
-/

namespace TypedEnv.Json

open TypedEnv.Text

def isSpace (c : Char) : Bool := c = ' ' ∨ c = '\n' ∨ c = '\t' ∨ c = '\r'

def skipSpace (text : List Char) : List Char := text.dropWhile isSpace

theorem length_skipSpace_le (text : List Char) : (skipSpace text).length ≤ text.length :=
  length_dropWhile_le isSpace text

def hexValue? (c : Char) : Option Nat :=
  if isDigit c then some (digitValue c)
  else if 'a' ≤ c ∧ c ≤ 'f' then some (c.toNat - 'a'.toNat + 10)
  else if 'A' ≤ c ∧ c ≤ 'F' then some (c.toNat - 'A'.toNat + 10)
  else none

/-- Four hexadecimal digits.  When they are not all digits, their four bytes count as used. -/
def fourHex (text : List Char) : Except Fault (Step Nat text) :=
  match text with
  | a :: b :: c :: d :: rest =>
    match hexValue? a, hexValue? b, hexValue? c, hexValue? d with
    | some a, some b, some c, some d =>
      .ok ⟨((a * 16 + b) * 16 + c) * 16 + d, rest, by
        simp only [List.length_cons]
        omega⟩
    | _, _, _, _ => .error ⟨.invalidEscape, byteCount text - 4⟩
  | _ =>
    if byteCount text < 4 then .error (.before .endInString [])
    else .error ⟨.invalidEscape, byteCount text - 4⟩

def isLeading (n : Nat) : Bool := 0xD800 ≤ n && n ≤ 0xDBFF

def isTrailing (n : Nat) : Bool := 0xDC00 ≤ n && n ≤ 0xDFFF

/-- The character of an escape by code units, after its letter `u`.  A leading surrogate needs a
trailing one right after it. -/
def unicodeEscape (text : List Char) : Except Fault (Step Char text) := do
  let first ← fourHex text
  if isTrailing first.value then throw (.before .loneSurrogate first.rest)
  else if isLeading first.value then
    match h : first.rest with
    | [] => throw (.before .endInString [])
    | '\\' :: [] => throw (.before .endInString [])
    | '\\' :: 'u' :: rest =>
      let second ← fourHex rest
      if isTrailing second.value then
        let code := (first.value - 0xD800) * 0x400 + (second.value - 0xDC00) + 0x10000
        return ⟨Char.ofNat code, second.rest, by
          have hfirst := first.shorter
          have hsecond := second.shorter
          rw [h, List.length_cons, List.length_cons] at hfirst
          omega⟩
      else throw (.before .loneSurrogate second.rest)
    | '\\' :: rest => throw (.on .endOfEscape rest)
    | rest => throw (.on .endOfEscape rest)
  else return first.map Char.ofNat

def escape (text : List Char) : Except Fault (Step Char text) :=
  match text with
  | [] => .error (.before .endInString [])
  | c :: rest =>
    let plain (value : Char) : Except Fault (Step Char (c :: rest)) := .ok (.head value)
    if c = '"' ∨ c = '\\' ∨ c = '/' then plain c
    else if c = 'b' then plain '\x08'
    else if c = 'f' then plain '\x0c'
    else if c = 'n' then plain '\n'
    else if c = 'r' then plain '\r'
    else if c = 't' then plain '\t'
    else if c = 'u' then (unicodeEscape rest).map (·.behind c)
    else .error (.on .invalidEscape (c :: rest))

def stringBody (text : List Char) : Except Fault (Step (List Char) text) :=
  match text with
  | [] => .error (.before .endInString [])
  | c :: rest =>
    if c = '"' then .ok (.head [])
    else if c = '\\' then do
      let first ← escape rest
      have := first.shorter
      let tail ← stringBody first.rest
      return ((first.trans tail).map (first.value :: ·)).behind c
    else if c.toNat < 0x20 then .error (.before .controlCharacter rest)
    else do
      let tail ← stringBody rest
      return (tail.map (c :: ·)).behind c
termination_by text.length

def wordTail : List Char → List Char → Except Fault (List Char)
  | [], text => .ok text
  | _ :: _, [] => .error (.before .endInValue [])
  | expected :: word, c :: rest =>
    if c = expected then wordTail word rest else .error (.on .expectedWord (c :: rest))

theorem length_le_of_wordTail {word text after : List Char}
    (h : wordTail word text = .ok after) : after.length ≤ text.length := by
  fun_induction wordTail word text with
  | case1 =>
    cases h
    exact Nat.le_refl _
  | case2 => cases h
  | case3 _ _ _ ih => exact Nat.le_succ_of_le (ih h)
  | case4 => cases h

theorem length_le_of_map_wordTail {word text after : List Char} {document value : Document}
    (h : ((wordTail word text).map fun rest => (document, rest)) = .ok (value, after)) :
    after.length ≤ text.length := by
  cases hw : wordTail word text with
  | error fault => simp [hw, Except.map] at h
  | ok rest =>
    simp only [hw, Except.map, Except.ok.injEq, Prod.mk.injEq] at h
    rw [← h.2]
    exact length_le_of_wordTail hw

def scalar (first : Char) (rest : List Char) : Except Fault Numeral :=
  if first = 'n' then (wordTail ['u', 'l', 'l'] rest).map fun rest => (.null, rest)
  else if first = 't' then (wordTail ['r', 'u', 'e'] rest).map fun rest => (.bool true, rest)
  else if first = 'f' then (wordTail ['a', 'l', 's', 'e'] rest).map fun rest => (.bool false, rest)
  else if first = '-' then number true rest
  else if isDigit first then number false (first :: rest)
  else if first = '"' then
    (stringBody rest).map fun step => (.string (String.ofList step.value), step.rest)
  else .error (.on .expectedValue (first :: rest))

theorem length_le_of_scalar {first : Char} {text after : List Char} {value : Document}
    (h : scalar first text = .ok (value, after)) : after.length ≤ text.length := by
  unfold scalar at h
  split at h
  · exact length_le_of_map_wordTail h
  split at h
  · exact length_le_of_map_wordTail h
  split at h
  · exact length_le_of_map_wordTail h
  split at h
  · exact Nat.le_of_lt (length_lt_of_number h)
  split at h
  · exact Nat.le_of_lt_succ (length_lt_of_number h)
  split at h
  · cases hs : stringBody text with
    | error fault => simp [hs, Except.map] at h
    | ok step =>
      simp only [hs, Except.map, Except.ok.injEq, Prod.mk.injEq] at h
      rw [← h.2]
      exact Nat.le_of_lt step.shorter
  · simp at h

abbrev ValueReader := (text : List Char) → Except Fault (Step Document text)

/-- The items of a list up to its closing bracket; `first` tells that none was read yet. -/
def items (value : ValueReader) (first : Bool) (text : List Char) :
    Except Fault (Step (List Document) text) :=
  have hskip := length_skipSpace_le text
  match h : skipSpace text with
  | [] => .error (.on .endInList [])
  | c :: rest =>
    have hrest : rest.length < text.length := by rw [h, List.length_cons] at hskip; omega
    if c = ']' then .ok ⟨[], rest, hrest⟩
    else if first then do
      let item ← value (c :: rest)
      have hitem : item.rest.length < text.length := by
        have := item.shorter
        simp only [List.length_cons] at this
        omega
      let tail ← items value false item.rest
      return ⟨item.value :: tail.value, tail.rest, by have := tail.shorter; omega⟩
    else if c = ',' then
      match skipSpace rest with
      | [] => .error (.on .endInValue [])
      | ']' :: after => .error (.on .trailingComma (']' :: after))
      | _ => do
        let item ← value rest
        have hitem : item.rest.length < text.length := by
          have := item.shorter
          omega
        let tail ← items value false item.rest
        return ⟨item.value :: tail.value, tail.rest, by have := tail.shorter; omega⟩
    else .error (.on .expectedListCommaOrEnd (c :: rest))
termination_by text.length

def member (value : ValueReader) (text : List Char) :
    Except Fault (Step (String × Document) text) := do
  let key ← stringBody text
  match h : skipSpace key.rest with
  | [] => throw (.on .endInObject [])
  | c :: rest =>
    if c = ':' then
      let item ← value rest
      return ⟨(String.ofList key.value, item.value), item.rest, by
        have := key.shorter
        have := item.shorter
        have := length_skipSpace_le key.rest
        rw [h] at this
        simp only [List.length_cons] at this
        omega⟩
    else throw (.on .expectedColon (c :: rest))

def members (value : ValueReader) (first : Bool) (text : List Char) :
    Except Fault (Step (List (String × Document)) text) :=
  have hskip := length_skipSpace_le text
  match h : skipSpace text with
  | [] => .error (.on .endInObject [])
  | c :: rest =>
    have hrest : rest.length < text.length := by rw [h, List.length_cons] at hskip; omega
    if c = '\x7d' then .ok ⟨[], rest, hrest⟩
    else if first then
      if c = '"' then do
        let item ← member value rest
        have hitem : item.rest.length < text.length := by have := item.shorter; omega
        let tail ← members value false item.rest
        return ⟨item.value :: tail.value, tail.rest, by have := tail.shorter; omega⟩
      else .error (.on .keyNotString (c :: rest))
    else if c = ',' then
      match hkey : skipSpace rest with
      | [] => .error (.on .endInValue [])
      | k :: after =>
        if k = '"' then do
          let item ← member value after
          have hitem : item.rest.length < text.length := by
            have := item.shorter
            have := length_skipSpace_le rest
            rw [hkey] at this
            simp only [List.length_cons] at this
            omega
          let tail ← members value false item.rest
          return ⟨item.value :: tail.value, tail.rest, by have := tail.shorter; omega⟩
        else if k = '\x7d' then .error (.on .trailingComma (k :: after))
        else .error (.on .keyNotString (k :: after))
    else .error (.on .expectedObjectCommaOrEnd (c :: rest))
termination_by text.length

def scalarStep (first : Char) (text : List Char) : Except Fault (Step Document (first :: text)) :=
  match h : scalar first text with
  | .ok (value, rest) => .ok ⟨value, rest, Nat.lt_succ_of_le (length_le_of_scalar h)⟩
  | .error fault => .error fault

/-- A value; `room` is one more than the number of levels that may still open. -/
def value : Nat → ValueReader
  | 0, text => .error (.on .tooDeep text)
  | room + 1, text =>
    have hskip := length_skipSpace_le text
    match h : skipSpace text with
    | [] => .error (.on .endInValue [])
    | c :: rest =>
      have hrest : rest.length ≤ text.length := by rw [h, List.length_cons] at hskip; omega
      if c = '[' then
        if room = 0 then .error (.on .tooDeep (c :: rest))
        else (items (value room) true rest).map fun step => (step.map .array).widen hrest
      else if c = '\x7b' then
        if room = 0 then .error (.on .tooDeep (c :: rest))
        else (members (value room) true rest).map fun step => (step.map .ofMembers).widen hrest
      else (scalarStep c rest).map (·.widen (by rw [h] at hskip; exact hskip))

def room : Nat := 128

def atEnd (text : List Char) : Except Fault Unit :=
  match skipSpace text with
  | [] => .ok ()
  | rest => .error (.on .trailingCharacters rest)

def parse (text : List Char) : Except Fault Document := do
  let step ← value room text
  atEnd step.rest
  return step.value

def found : Document → String
  | .null => "null"
  | .bool b => "boolean `" ++ toString b ++ "`"
  | .int n => "integer `" ++ String.ofList (intText n) ++ "`"
  | .float x => "floating point `" ++ String.ofList (floatText x) ++ "`"
  | .string s => "string " ++ quoted s
  | .array _ => "sequence"
  | .object _ => "map"

/-- The members of the object that a text writes, in key order.  A text that starts with another
value is refused right after that value, a list at its bracket. -/
def parseObject (text : List Char) : Except Fault (List (String × Document)) :=
  match skipSpace text with
  | [] => .error (.on .endInValue [])
  | c :: rest => do
    if c = '\x7b' then
      let step ← members (value (room - 1)) true rest
      atEnd step.rest
      return step.value.foldl (fun entries entry => insertEntry entry.1 entry.2 entries) []
    else if c = '[' then throw (.before (.notObject "sequence") (c :: rest))
    else
      let (value, rest) ← scalar c rest
      throw (.before (.notObject (found value)) rest)

end TypedEnv.Json
