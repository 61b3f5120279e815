import TypedEnv.Json.Parser
import TypedEnv.Toml.Edition

/-!
The small parts of TOML texts: blanks, comments, ends of lines, keys and strings.
-/

namespace TypedEnv.Toml

open TypedEnv.Text

def isSpace (c : Char) : Bool := c = ' ' ∨ c = '\t'

def skipSpace (text : List Char) : List Char := text.dropWhile isSpace

theorem length_skipSpace_le (text : List Char) : (skipSpace text).length ≤ text.length :=
  length_dropWhile_le isSpace text

def isPrintable (c : Char) : Bool := c = '\t' ∨ (0x20 ≤ c.toNat ∧ c.toNat ≠ 0x7F)

def skipComment (text : List Char) : List Char :=
  match text with
  | '#' :: rest => rest.dropWhile isPrintable
  | _ => text

theorem length_skipComment_le (text : List Char) : (skipComment text).length ≤ text.length := by
  unfold skipComment
  split
  · have := length_dropWhile_le isPrintable ‹List Char›
    simp
    omega
  · exact Nat.le_refl _

def lineBreak? (text : List Char) : Option (List Char) :=
  match text with
  | '\n' :: rest => some rest
  | '\r' :: '\n' :: rest => some rest
  | _ => none

theorem length_lt_of_lineBreak? {text rest : List Char} (h : lineBreak? text = some rest) :
    rest.length < text.length := by
  unfold lineBreak? at h
  split at h
  · cases h
    simp only [List.length_cons]
    omega
  · cases h
    simp only [List.length_cons]
    omega
  · cases h

def nextLine? (text : List Char) : Option (List Char) :=
  match skipComment (skipSpace text) with
  | [] => some []
  | rest => lineBreak? rest

theorem length_le_of_nextLine? {text rest : List Char} (h : nextLine? text = some rest) :
    rest.length ≤ text.length := by
  unfold nextLine? at h
  split at h
  · simp_all
  · have h1 := length_lt_of_lineBreak? h
    have h2 := length_skipComment_le (skipSpace text)
    have h3 := length_skipSpace_le text
    omega

def skipLines (text : List Char) : List Char :=
  match h : lineBreak? (skipComment (skipSpace text)) with
  | some rest =>
    have : rest.length < text.length := by
      have h1 := length_lt_of_lineBreak? h
      have h2 := length_skipComment_le (skipSpace text)
      have h3 := length_skipSpace_le text
      omega
    skipLines rest
  | none => skipSpace text
termination_by text.length

theorem length_skipLines_le (text : List Char) : (skipLines text).length ≤ text.length := by
  fun_induction skipLines text with
  | case1 text rest h hlt ih => omega
  | case2 text h => exact length_skipSpace_le text

/-- Skips what may stand between the parts of a line, or of a table in braces. -/
def skipGap (edition : Edition) (inBraces : Bool) (text : List Char) : List Char :=
  if inBraces && edition.openBraces then skipLines text else skipSpace text

theorem length_skipGap_le (edition : Edition) (inBraces : Bool) (text : List Char) :
    (skipGap edition inBraces text).length ≤ text.length := by
  unfold skipGap
  split
  · exact length_skipLines_le text
  · exact length_skipSpace_le text

theorem length_lt_of_skipGap_eq_cons {edition : Edition} {inBraces : Bool} {text rest : List Char}
    {c : Char} (h : skipGap edition inBraces text = c :: rest) : rest.length < text.length := by
  have := length_skipGap_le edition inBraces text
  rw [h] at this
  exact this

section Strings

variable (edition : Edition)

def codePoint? (count : Nat) (text : List Char) : Option Char :=
  match (text.take count).mapM Json.hexValue? with
  | none => none
  | some digits =>
    let code := digits.foldl (fun n digit => n * 16 + digit) 0
    if digits.length = count ∧ code.isValidChar then some (Char.ofNat code) else none

def escape? (text : List Char) : Option (Step Char text) :=
  match text with
  | [] => none
  | c :: rest =>
    let plain (value : Char) : Option (Step Char (c :: rest)) := some (.head value)
    let coded (count : Nat) : Option (Step Char (c :: rest)) :=
      (codePoint? count rest).map fun value =>
        ⟨value, rest.drop count, length_drop_lt_cons count c rest⟩
    if c = 'b' then plain '\x08'
    else if c = 'e' ∧ edition.shortEscapes then plain '\x1b'
    else if c = 't' then plain '\t'
    else if c = 'n' then plain '\n'
    else if c = 'f' then plain '\x0c'
    else if c = 'r' then plain '\r'
    else if c = '"' ∨ c = '\\' then plain c
    else if c = 'x' ∧ edition.shortEscapes then coded 2
    else if c = 'u' then coded 4
    else if c = 'U' then coded 8
    else none

def basicBody? (text : List Char) : Option (Step (List Char) text) :=
  match text with
  | [] => none
  | c :: rest =>
    if c = '"' then some (.head [])
    else if c = '\\' then do
      let first ← escape? edition rest
      have := first.shorter
      let tail ← basicBody? first.rest
      return ((first.trans tail).map (first.value :: ·)).behind c
    else if isPrintable c then do
      let tail ← basicBody? rest
      return (tail.map (c :: ·)).behind c
    else none
termination_by text.length

def literalBody? (text : List Char) : Option (Step (List Char) text) :=
  match text with
  | [] => none
  | c :: rest =>
    if c = '\'' then some (.head [])
    else if isPrintable c then do
      let tail ← literalBody? rest
      return (tail.map (c :: ·)).behind c
    else none

def skipBreaks (text : List Char) : List Char :=
  match text with
  | [] => []
  | '\n' :: rest => skipBreaks rest
  | '\r' :: '\n' :: rest => skipBreaks rest
  | c :: rest => if isSpace c then skipBreaks rest else c :: rest

theorem length_skipBreaks_le (text : List Char) : (skipBreaks text).length ≤ text.length := by
  fun_induction skipBreaks text <;> simp_all <;> omega

/-- The text after the line that a backslash continues: the rest of the line is blank, and all
blanks and line breaks after it are skipped. -/
def continuation? (text : List Char) : Option (Step Unit text) :=
  match h : lineBreak? (skipSpace text) with
  | some rest => some ⟨(), skipBreaks rest, by
      have h1 := length_lt_of_lineBreak? h
      have h2 := length_skipSpace_le text
      have h3 := length_skipBreaks_le rest
      omega⟩
  | none => none

def writtenBreak (text : List Char) : List Char :=
  match text with
  | '\r' :: _ => if edition.keepsBreaks then ['\r', '\n'] else ['\n']
  | _ => ['\n']

/-- The characters of a string of several lines up to three marks, after the opening ones.  Up to
two marks in front of the closing ones belong to the string, and so do one or two alone.  Escapes
count where the mark is the double quote. -/
def multilineBody? (mark : Char) (text : List Char) : Option (Step (List Char) text) :=
  match text with
  | [] => none
  | c :: rest =>
    if c = mark then
      match h : (c :: rest).takeWhile (· == mark) with
      | _ :: _ :: _ :: more =>
        let kept := more.take 2
        some ⟨kept, (c :: rest).drop (3 + kept.length), by
          rw [List.length_drop, List.length_cons]
          omega⟩
      | _ => do
        let tail ← multilineBody? mark rest
        return (tail.map (c :: ·)).behind c
    else if c = '\\' ∧ mark = '"' then
      match continuation? rest with
      | some next => do
        have := next.shorter
        let tail ← multilineBody? mark next.rest
        return (next.trans tail).behind c
      | none => do
        let first ← escape? edition rest
        have := first.shorter
        let tail ← multilineBody? mark first.rest
        return ((first.trans tail).map (first.value :: ·)).behind c
    else
      match h : lineBreak? (c :: rest) with
      | some next => do
        have hnext := length_lt_of_lineBreak? h
        let tail ← multilineBody? mark next
        return ⟨writtenBreak edition (c :: rest) ++ tail.value, tail.rest, by
          have := tail.shorter
          omega⟩
      | none =>
        if isPrintable c then do
          let tail ← multilineBody? mark rest
          return (tail.map (c :: ·)).behind c
        else none
termination_by text.length
decreasing_by all_goals (simp only [List.length_cons] at *; omega)

def multiline? (mark : Char) (text : List Char) : Option (Step (List Char) text) :=
  match h : lineBreak? text with
  | some rest =>
    (multilineBody? edition mark rest).map (·.widen (Nat.le_of_lt (length_lt_of_lineBreak? h)))
  | none => multilineBody? edition mark text

def string? (text : List Char) : Option (Step String text) :=
  match text with
  | '"' :: '"' :: '"' :: rest =>
    (multiline? edition '"' rest).map fun step =>
      (((step.map String.ofList).behind '"').behind '"').behind '"'
  | '"' :: rest => (basicBody? edition rest).map fun step => (step.map String.ofList).behind '"'
  | '\'' :: '\'' :: '\'' :: rest =>
    (multiline? edition '\'' rest).map fun step =>
      (((step.map String.ofList).behind '\'').behind '\'').behind '\''
  | '\'' :: rest => (literalBody? rest).map fun step => (step.map String.ofList).behind '\''
  | _ => none

end Strings

def isBareKeyChar (c : Char) : Bool := c.isAlphanum || c == '_' || c == '-'

section Keys

variable (edition : Edition)

def keyPart? (text : List Char) : Option (Step String text) :=
  match text with
  | '"' :: rest => (basicBody? edition rest).map fun step => (step.map String.ofList).behind '"'
  | '\'' :: rest => (literalBody? rest).map fun step => (step.map String.ofList).behind '\''
  | c :: rest =>
    if isBareKeyChar c then
      some ⟨String.ofList (c :: rest.takeWhile isBareKeyChar), rest.dropWhile isBareKeyChar, by
        have := length_dropWhile_le isBareKeyChar rest
        simp only [List.length_cons]
        omega⟩
    else none
  | [] => none

def keyParts? (text : List Char) : Option (Step (List String) text) := do
  let first ← keyPart? edition (skipSpace text)
  have hfirst : first.rest.length < text.length := by
    have := first.shorter
    have := length_skipSpace_le text
    omega
  have hskip := length_skipSpace_le first.rest
  match h : skipSpace first.rest with
  | '.' :: rest =>
    have hrest : rest.length < text.length := by
      rw [h] at hskip
      simp only [List.length_cons] at hskip
      omega
    let more ← keyParts? rest
    return ⟨first.value :: more.value, more.rest, by
      have := more.shorter
      omega⟩
  | rest => return ⟨[first.value], rest, by rw [h] at hskip; omega⟩
termination_by text.length

/-- A key that is not too long: the parts before the last one, and the last one. -/
def key? (text : List Char) : Option (Step (List String × String) text) := do
  let step ← keyParts? edition text
  match step.value.getLast? with
  | some last =>
    if step.value.length ≤ edition.keyParts then
      return step.map fun parts => (parts.dropLast, last)
    else none
  | none => none

end Keys

end TypedEnv.Toml
