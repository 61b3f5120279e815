/-!
Sets of characters, given by inclusive ranges of code points in the form in which character
properties are published.  The first of them is white space, in the sense of the property
`White_Space`: every text of the library is trimmed by this one notion of a blank.
-/

namespace TypedEnv.Text

structure CharSet where
  ranges : List (Nat × Nat)

namespace CharSet

def contains (set : CharSet) (c : Char) : Bool :=
  set.ranges.any fun range => range.1 ≤ c.toNat && c.toNat ≤ range.2

theorem contains_iff (set : CharSet) (c : Char) :
    set.contains c = true ↔ ∃ range ∈ set.ranges, range.1 ≤ c.toNat ∧ c.toNat ≤ range.2 := by
  simp [contains]

end CharSet

def blanks : CharSet :=
  ⟨[(0x9, 0xD), (0x20, 0x20), (0x85, 0x85), (0xA0, 0xA0), (0x1680, 0x1680), (0x2000, 0x200A),
    (0x2028, 0x2029), (0x202F, 0x202F), (0x205F, 0x205F), (0x3000, 0x3000)]⟩

def isBlank (c : Char) : Bool := blanks.contains c

def trimStart (text : List Char) : List Char := text.dropWhile isBlank

def trimEnd (text : List Char) : List Char := (trimStart text.reverse).reverse

def trim (text : List Char) : List Char := trimEnd (trimStart text)

def trimmed (text : String) : String := String.ofList (trim text.toList)

@[simp] theorem trimStart_nil : trimStart [] = [] := rfl

@[simp] theorem trim_nil : trim [] = [] := rfl

theorem isBlank_of_trimStart_eq_cons {text rest : List Char} {c : Char}
    (h : trimStart text = c :: rest) : isBlank c = false := by
  unfold trimStart at h
  induction text with
  | nil => simp at h
  | cons d text ih =>
    rw [List.dropWhile_cons] at h
    split at h
    · exact ih h
    · simp_all

end TypedEnv.Text
