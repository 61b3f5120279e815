/-!
Reading from the front of a text.  A successful step carries the proof that it used up part of the
text, so loops over steps end by the length of what is left.
-/

namespace TypedEnv.Text

universe u v

/-- What a step yields on `text`: a value and a shorter rest. -/
structure Step (α : Type u) (text : List Char) where
  value : α
  rest : List Char
  shorter : rest.length < text.length

namespace Step

variable {α : Type u} {β : Type v}

def map (f : α → β) {text : List Char} (step : Step α text) : Step β text :=
  ⟨f step.value, step.rest, step.shorter⟩

def widen {text part : List Char} (step : Step α part) (h : part.length ≤ text.length) :
    Step α text :=
  ⟨step.value, step.rest, Nat.lt_of_lt_of_le step.shorter h⟩

def head (value : α) {c : Char} {rest : List Char} : Step α (c :: rest) :=
  ⟨value, rest, Nat.lt_succ_self _⟩

def behind (c : Char) {rest : List Char} (step : Step α rest) : Step α (c :: rest) :=
  step.widen (Nat.le_succ _)

def trans {text : List Char} (first : Step α text) (next : Step β first.rest) : Step β text :=
  next.widen (Nat.le_of_lt first.shorter)

end Step

theorem length_drop_lt_cons (count : Nat) (c : Char) (rest : List Char) :
    (rest.drop count).length < (c :: rest).length := by
  rw [List.length_drop, List.length_cons]
  omega

def byteCount : List Char → Nat
  | [] => 0
  | c :: rest => c.utf8Size + byteCount rest

theorem length_dropWhile_le (p : Char → Bool) (text : List Char) :
    (text.dropWhile p).length ≤ text.length := by
  induction text with
  | nil => simp
  | cons c rest ih =>
    rw [List.dropWhile_cons]
    split
    · simp only [List.length_cons]
      omega
    · simp

end TypedEnv.Text
