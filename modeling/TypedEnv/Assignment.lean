import TypedEnv.Text.Blank
import TypedEnv.Text.Cut
import TypedEnv.Text.Word

/-!
Assignments, the lines `KEY = value` of an env file.

A line is an assignment when a key and an equals sign start it and the trimmed rest neither holds
a line feed nor starts with `#`.  All other lines are passed over.
-/

namespace TypedEnv

open TypedEnv.Text

structure Assignment where
  key : String
  value : String
  deriving DecidableEq, Repr

namespace Assignment

def isKeyChar (c : Char) : Bool := isWord c || c == '.' || c == '-'

def isLineEnd (c : Char) : Bool := c == '\n' || c == '\r'

def expandBreaks : List Char → List Char
  | '\\' :: 'n' :: rest => '\n' :: expandBreaks rest
  | c :: rest => c :: expandBreaks rest
  | [] => []

def enclosed? (mark : Char) (text : List Char) : Option (List Char) :=
  match text with
  | first :: rest =>
    if first = mark ∧ rest.getLast? = some mark then some rest.dropLast else none
  | [] => none

/-- The value that a trimmed text writes: double quotes take line breaks, single quotes take all
as it stands, and other text is its own value. -/
def unquote (text : List Char) : List Char :=
  match enclosed? '"' text with
  | some inner => expandBreaks inner
  | none => (enclosed? '\'' text).getD text

/-- The value after the equals sign, unless it is a comment or goes beyond the line. -/
def value? (text : List Char) : Option (List Char) :=
  let trimmed := trim text
  if trimmed.head? = some '#' ∨ '\n' ∈ trimmed then none else some (unquote trimmed)

def ofLine? (line : List Char) : Option Assignment :=
  let text := trimStart line
  let key := text.takeWhile isKeyChar
  match trimStart (text.dropWhile isKeyChar) with
  | '=' :: rest =>
    if key = [] then none
    else (value? rest).map fun value => ⟨String.ofList key, String.ofList value⟩
  | _ => none

/-- The assignments of a text in their order.  Line feeds and carriage returns both end lines. -/
def ofText (text : String) : List Assignment :=
  (splitWhere isLineEnd text.toList).filterMap ofLine?

theorem enclosed?_eq_some_iff {mark : Char} {text inner : List Char} :
    enclosed? mark text = some inner ↔ text = mark :: inner ++ [mark] := by
  cases text with
  | nil => simp [enclosed?]
  | cons first rest =>
    simp only [enclosed?]
    constructor
    · intro h
      split at h
      · next hm =>
        obtain ⟨rfl, hl⟩ := hm
        obtain ⟨init, rfl⟩ := List.getLast?_eq_some_iff.1 hl
        simp_all
      · simp at h
    · intro h
      simp only [List.cons_append, List.cons.injEq] at h
      obtain ⟨rfl, rfl⟩ := h
      simp

end Assignment

end TypedEnv
