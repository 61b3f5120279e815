/-!
Cutting a text at a separator, and its inverse, joining.  Occurrences are found from the left and
do not overlap.
-/

namespace TypedEnv.Text

def cutAt (separator : List Char) : List Char → Option (List Char × List Char)
  | [] => if separator.isEmpty then some ([], []) else none
  | c :: rest =>
    if separator.isPrefixOf (c :: rest) then some ([], (c :: rest).drop separator.length)
    else (cutAt separator rest).map fun parts => (c :: parts.1, parts.2)

theorem eq_append_of_cutAt {separator text before after : List Char}
    (h : cutAt separator text = some (before, after)) : text = before ++ separator ++ after := by
  induction text generalizing before after with
  | nil =>
    simp only [cutAt] at h
    split at h
    · simp_all
    · simp at h
  | cons c rest ih =>
    simp only [cutAt] at h
    split at h
    · next hp =>
      obtain ⟨tail, ht⟩ := List.isPrefixOf_iff_prefix.1 hp
      simp only [Option.some.injEq, Prod.mk.injEq] at h
      obtain ⟨rfl, rfl⟩ := h
      rw [← ht]
      simp
    · obtain ⟨⟨b, a⟩, hc, he⟩ := Option.map_eq_some_iff.1 h
      simp only [Prod.mk.injEq] at he
      obtain ⟨rfl, rfl⟩ := he
      rw [ih hc]
      simp

def occursIn (piece text : List Char) : Bool := (cutAt piece text).isSome

def splitOn (head : Char) (tail text : List Char) : List (List Char) :=
  match h : cutAt (head :: tail) text with
  | none => [text]
  | some (before, after) =>
    have : after.length < text.length := by
      rw [eq_append_of_cutAt h]
      simp only [List.length_append, List.length_cons]
      omega
    before :: splitOn head tail after
termination_by text.length

theorem splitOn_ne_nil (head : Char) (tail text : List Char) : splitOn head tail text ≠ [] := by
  unfold splitOn
  split <;> simp

def splitWhere (p : Char → Bool) : List Char → List (List Char)
  | [] => [[]]
  | c :: rest =>
    if p c then [] :: splitWhere p rest
    else
      match splitWhere p rest with
      | [] => [[c]]
      | piece :: pieces => (c :: piece) :: pieces

theorem splitWhere_ne_nil (p : Char → Bool) (text : List Char) : splitWhere p text ≠ [] := by
  cases text with
  | nil => simp [splitWhere]
  | cons c rest =>
    simp only [splitWhere]
    split
    · simp
    · split <;> simp

/-- The lines of a text: a final line feed starts no further line, and a carriage return before a
line feed belongs to the line's end. -/
def lines (text : List Char) : List (List Char) :=
  match (splitWhere (· == '\n') text).reverse with
  | [] => []
  | last :: earlier =>
    let ended := (earlier.map fun line =>
      if line.getLast? == some '\r' then line.dropLast else line).reverse
    if last.isEmpty then ended else ended ++ [last]

def join (separator : String) (pieces : List String) : String := String.intercalate separator pieces

end TypedEnv.Text
