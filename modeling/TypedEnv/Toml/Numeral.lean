import TypedEnv.Toml.Value
import TypedEnv.Toml.Lexeme

/-!
Numbers, dates and times of TOML texts.  Each reader returns a value and the text after it; digits
may have single underscores between them.
-/

namespace TypedEnv.Toml

open TypedEnv.Text

/-- The digits of a run after its first one; an underscore needs a digit right after it. -/
def moreDigits? (digit : Char → Bool) (text : List Char) : Option (List Char × List Char) :=
  match text with
  | '_' :: c :: rest =>
    if digit c then (moreDigits? digit rest).map fun (digits, rest) => (c :: digits, rest)
    else none
  | ['_'] => none
  | c :: rest =>
    if digit c then (moreDigits? digit rest).map fun (digits, rest) => (c :: digits, rest)
    else some ([], c :: rest)
  | [] => some ([], [])

theorem length_le_of_moreDigits? {digit : Char → Bool} {text digits rest : List Char}
    (h : moreDigits? digit text = some (digits, rest)) : rest.length ≤ text.length := by
  fun_induction moreDigits? digit text generalizing digits rest with
  | case1 c tail hc ih =>
    obtain ⟨⟨more, after⟩, hm, he⟩ := Option.map_eq_some_iff.1 h
    have hmore := ih hm
    cases he
    simp only [List.length_cons]
    omega
  | case2 c tail hc => cases h
  | case3 => cases h
  | case4 c tail _ _ hc ih =>
    obtain ⟨⟨more, after⟩, hm, he⟩ := Option.map_eq_some_iff.1 h
    have hmore := ih hm
    cases he
    simp only [List.length_cons]
    omega
  | case5 c tail _ _ hc =>
    cases h
    exact Nat.le_refl _
  | case6 =>
    cases h
    exact Nat.le_refl _

def digits? (digit : Char → Bool) (text : List Char) : Option (List Char × List Char) :=
  match text with
  | c :: rest =>
    if digit c then (moreDigits? digit rest).map fun (digits, rest) => (c :: digits, rest)
    else none
  | [] => none

theorem length_lt_of_digits? {digit : Char → Bool} {text digits rest : List Char}
    (h : digits? digit text = some (digits, rest)) : rest.length < text.length := by
  unfold digits? at h
  split at h
  · split at h
    · obtain ⟨⟨more, after⟩, hm, he⟩ := Option.map_eq_some_iff.1 h
      have := length_le_of_moreDigits? hm
      cases he
      simp only [List.length_cons]
      omega
    · simp at h
  · simp at h

def wholeDigits? (text : List Char) : Option (List Char × List Char) :=
  match text with
  | '0' :: rest => some (['0'], rest)
  | _ => digits? isDigit text

theorem length_lt_of_wholeDigits? {text digits rest : List Char}
    (h : wholeDigits? text = some (digits, rest)) : rest.length < text.length := by
  unfold wholeDigits? at h
  split at h
  · simp_all
  · exact length_lt_of_digits? h

def fractionText? (text : List Char) : Option (List Char × List Char) :=
  match text with
  | '.' :: rest => (digits? isDigit rest).map fun (digits, rest) => ('.' :: digits, rest)
  | _ => some ([], text)

theorem length_le_of_fractionText? {text digits rest : List Char}
    (h : fractionText? text = some (digits, rest)) : rest.length ≤ text.length := by
  unfold fractionText? at h
  split at h
  · obtain ⟨⟨more, after⟩, hm, he⟩ := Option.map_eq_some_iff.1 h
    have := length_lt_of_digits? hm
    cases he
    simp only [List.length_cons]
    omega
  · simp_all

def signText (text : List Char) : List Char × List Char :=
  match text with
  | '+' :: rest => (['+'], rest)
  | '-' :: rest => (['-'], rest)
  | _ => ([], text)

theorem length_signText_le (text : List Char) : (signText text).2.length ≤ text.length := by
  unfold signText
  split <;> simp

def exponentText? (text : List Char) : Option (List Char × List Char) :=
  match text with
  | c :: rest =>
    if c = 'e' ∨ c = 'E' then
      let (sign, rest) := signText rest
      (digits? isDigit rest).map fun (digits, rest) => ('e' :: sign ++ digits, rest)
    else some ([], text)
  | [] => some ([], [])

theorem length_le_of_exponentText? {text digits rest : List Char}
    (h : exponentText? text = some (digits, rest)) : rest.length ≤ text.length := by
  unfold exponentText? at h
  split at h
  · next c tail =>
    split at h
    · obtain ⟨⟨more, after⟩, hm, he⟩ := Option.map_eq_some_iff.1 h
      have hdigits : after.length < (signText tail).2.length := length_lt_of_digits? hm
      have hsign := length_signText_le tail
      cases he
      rw [List.length_cons]
      omega
    · simp_all
  · simp_all

/-- The number can be kept: it is not above the range of binary64, nor below it where the edition
minds that. -/
def Edition.keeps (edition : Edition) (x : Binary64) : Bool :=
  x != .infinite false && !(edition.refusesBelow && x == .infinite true)

def float? (edition : Edition) (text : List Char) : Option (Value × List Char) := do
  let (sign, rest) := signText text
  let (whole, rest) ← wholeDigits? rest
  let (fraction, rest) ← fractionText? rest
  let (exponent, rest) ← exponentText? rest
  if fraction = [] ∧ exponent = [] then none
  else
    let x ← Binary64.ofText? (sign ++ whole ++ fraction ++ exponent)
    if edition.keeps x then some (.float x, rest) else none

theorem length_lt_of_float? {edition : Edition} {text rest : List Char} {value : Value}
    (h : float? edition text = some (value, rest)) : rest.length < text.length := by
  unfold float? at h
  have hsign := length_signText_le text
  simp only [Option.bind_eq_bind, Option.bind_eq_some_iff, Prod.exists] at h
  obtain ⟨whole, r1, h1, fraction, r2, h2, exponent, r3, h3, h⟩ := h
  have := length_lt_of_wholeDigits? h1
  have := length_le_of_fractionText? h2
  have := length_le_of_exponentText? h3
  split at h
  · simp at h
  · obtain ⟨x, _, h⟩ := Option.bind_eq_some_iff.1 h
    split at h
    · cases h
      omega
    · cases h

def namedFloat? (text : List Char) : Option (Value × List Char) :=
  let (sign, rest) := signText text
  match rest with
  | 'i' :: 'n' :: 'f' :: rest => some (.float (.infinite (sign == ['-'])), rest)
  | 'n' :: 'a' :: 'n' :: rest => some (.float .nan, rest)
  | _ => none

theorem length_lt_of_namedFloat? {text rest : List Char} {value : Value}
    (h : namedFloat? text = some (value, rest)) : rest.length < text.length := by
  have hsign := length_signText_le text
  simp only [namedFloat?] at h
  split at h
  · next hr =>
    cases h
    rw [hr] at hsign
    simp only [List.length_cons] at hsign
    omega
  · next hr =>
    cases h
    rw [hr] at hsign
    simp only [List.length_cons] at hsign
    omega
  · cases h

def based? (edition : Edition) (base : Nat) (digit : Char → Bool) (text : List Char) :
    Option (Value × List Char) := do
  let (digits, rest) ← digits? digit text
  let values ← digits.mapM Json.hexValue?
  let n := values.foldl (fun n value => n * base + value) 0
  if (n : Int) ≤ edition.greatestInteger then some (.integer n, rest) else none

theorem length_lt_of_based? {edition : Edition} {base : Nat} {digit : Char → Bool}
    {text rest : List Char} {value : Value}
    (h : based? edition base digit text = some (value, rest)) : rest.length < text.length := by
  unfold based? at h
  simp only [Option.bind_eq_bind, Option.bind_eq_some_iff, Prod.exists] at h
  obtain ⟨digits, r, h1, values, h2, h⟩ := h
  have := length_lt_of_digits? h1
  split at h
  · cases h
    omega
  · cases h

def integer? (edition : Edition) (text : List Char) : Option (Value × List Char) :=
  match text with
  | '0' :: 'x' :: rest => based? edition 16 (fun c => (Json.hexValue? c).isSome) rest
  | '0' :: 'o' :: rest => based? edition 8 (fun c => '0' ≤ c && c ≤ '7') rest
  | '0' :: 'b' :: rest => based? edition 2 (fun c => c == '0' || c == '1') rest
  | _ => do
    let (sign, rest) := signText text
    let (digits, rest) ← wholeDigits? rest
    let n : Int := if sign = ['-'] then -(ofDigits digits : Int) else ofDigits digits
    if edition.leastInteger ≤ n ∧ n ≤ edition.greatestInteger then some (.integer n, rest)
    else none

theorem length_lt_of_integer? {edition : Edition} {text rest : List Char} {value : Value}
    (h : integer? edition text = some (value, rest)) : rest.length < text.length := by
  unfold integer? at h
  split at h
  · have := length_lt_of_based? h
    simp only [List.length_cons] at *
    omega
  · have := length_lt_of_based? h
    simp only [List.length_cons] at *
    omega
  · have := length_lt_of_based? h
    simp only [List.length_cons] at *
    omega
  · have hsign := length_signText_le text
    simp only [Option.bind_eq_bind, Option.bind_eq_some_iff, Prod.exists] at h
    obtain ⟨digits, r, h1, h⟩ := h
    have := length_lt_of_wholeDigits? h1
    obtain ⟨_, h⟩ := Option.ite_none_right_eq_some.1 h
    cases h
    omega

def fixedDigits? (count : Nat) (text : List Char) : Option (Nat × List Char) :=
  let digits := text.take count
  if digits.length = count ∧ digits.all isDigit then some (ofDigits digits, text.drop count)
  else none

theorem length_le_of_fixedDigits? {count n : Nat} {text rest : List Char}
    (h : fixedDigits? count text = some (n, rest)) : rest.length ≤ text.length := by
  unfold fixedDigits? at h
  obtain ⟨_, h⟩ := Option.ite_none_right_eq_some.1 h
  cases h
  rw [List.length_drop]
  omega

def expect? (c : Char) (text : List Char) : Option (List Char) :=
  match text with
  | d :: rest => if d = c then some rest else none
  | [] => none

theorem length_lt_of_expect? {c : Char} {text rest : List Char}
    (h : expect? c text = some rest) : rest.length < text.length := by
  unfold expect? at h
  split at h
  · split at h
    · cases h
      simp only [List.length_cons]
      omega
    · cases h
  · cases h

def isLeapYear (year : Nat) : Bool := year % 4 == 0 && (year % 100 != 0 || year % 400 == 0)

def daysIn (year month : Nat) : Nat :=
  if month = 2 then if isLeapYear year then 29 else 28
  else if month ∈ [4, 6, 9, 11] then 30
  else 31

def padded (width n : Nat) : String :=
  let digits := toDigits n
  String.ofList (List.replicate (width - digits.length) '0' ++ digits)

def date? (text : List Char) : Option (String × List Char) := do
  let (year, rest) ← fixedDigits? 4 text
  let rest ← expect? '-' rest
  let (month, rest) ← fixedDigits? 2 rest
  let rest ← expect? '-' rest
  let (day, rest) ← fixedDigits? 2 rest
  if 1 ≤ month ∧ month ≤ 12 ∧ 1 ≤ day ∧ day ≤ daysIn year month then
    some (padded 4 year ++ "-" ++ padded 2 month ++ "-" ++ padded 2 day, rest)
  else none

theorem length_lt_of_date? {text rest : List Char} {date : String}
    (h : date? text = some (date, rest)) : rest.length < text.length := by
  unfold date? at h
  simp only [Option.bind_eq_bind, Option.bind_eq_some_iff, Prod.exists] at h
  obtain ⟨year, r1, h1, r2, h2, month, r3, h3, r4, h4, day, r5, h5, h⟩ := h
  have := length_le_of_fixedDigits? h1
  have := length_lt_of_expect? h2
  have := length_le_of_fixedDigits? h3
  have := length_lt_of_expect? h4
  have := length_le_of_fixedDigits? h5
  split at h
  · cases h
    omega
  · cases h

/-- The fraction of a second: nine digits count, and zeros at their end are dropped. -/
def secondFraction (digits : List Char) : String :=
  match ((digits.take 9).reverse.dropWhile (· == '0')).reverse with
  | [] => ""
  | kept => String.ofList ('.' :: kept)

def seconds? (text : List Char) : Option (String × List Char) := do
  let rest ← expect? ':' text
  let (second, rest) ← fixedDigits? 2 rest
  if second ≤ 60 then
    let whole := ":" ++ padded 2 second
    match rest with
    | '.' :: more =>
      let digits := more.takeWhile isDigit
      if digits = [] then none
      else some (whole ++ secondFraction digits, more.dropWhile isDigit)
    | _ => some (whole, rest)
  else none

theorem length_lt_of_seconds? {text rest : List Char} {seconds : String}
    (h : seconds? text = some (seconds, rest)) : rest.length < text.length := by
  unfold seconds? at h
  simp only [Option.bind_eq_bind, Option.bind_eq_some_iff, Prod.exists] at h
  obtain ⟨r1, h1, second, r2, h2, h⟩ := h
  have := length_lt_of_expect? h1
  have := length_le_of_fixedDigits? h2
  split at h
  · split at h
    · next more =>
      split at h
      · cases h
      · cases h
        have hmore := length_dropWhile_le isDigit more
        rw [List.length_cons] at *
        omega
    · cases h
      omega
  · cases h

/-- A time of day, as its canonical text.  A leap second is a second 60. -/
def time? (edition : Edition) (text : List Char) : Option (String × List Char) := do
  let (hour, rest) ← fixedDigits? 2 text
  let rest ← expect? ':' rest
  let (minute, rest) ← fixedDigits? 2 rest
  if hour ≤ 23 ∧ minute ≤ 59 then
    let whole := padded 2 hour ++ ":" ++ padded 2 minute
    match rest with
    | ':' :: _ => (seconds? rest).map fun (seconds, rest) => (whole ++ seconds, rest)
    | _ => if edition.secondsOptional then some (whole, rest) else none
  else none

theorem length_lt_of_time? {edition : Edition} {text rest : List Char} {time : String}
    (h : time? edition text = some (time, rest)) : rest.length < text.length := by
  unfold time? at h
  simp only [Option.bind_eq_bind, Option.bind_eq_some_iff, Prod.exists] at h
  obtain ⟨hour, r1, h1, r2, h2, minute, r3, h3, h⟩ := h
  have := length_le_of_fixedDigits? h1
  have := length_lt_of_expect? h2
  have := length_le_of_fixedDigits? h3
  split at h
  · split at h
    · obtain ⟨⟨seconds, after⟩, hm, he⟩ := Option.map_eq_some_iff.1 h
      have := length_lt_of_seconds? hm
      cases he
      dsimp only
      omega
    · split at h
      · cases h
        omega
      · cases h
  · simp at h

def offset? (text : List Char) : Option (String × List Char) :=
  match text with
  | c :: rest =>
    if c = 'Z' ∨ c = 'z' then some ("Z", rest)
    else if c = '+' ∨ c = '-' then do
      let (hour, rest) ← fixedDigits? 2 rest
      let rest ← expect? ':' rest
      let (minute, rest) ← fixedDigits? 2 rest
      if hour ≤ 23 ∧ minute ≤ 59 then
        let sign := if c = '-' ∧ (hour ≠ 0 ∨ minute ≠ 0) then "-" else "+"
        some (sign ++ padded 2 hour ++ ":" ++ padded 2 minute, rest)
      else none
    else some ("", text)
  | [] => some ("", [])

theorem length_le_of_offset? {text rest : List Char} {offset : String}
    (h : offset? text = some (offset, rest)) : rest.length ≤ text.length := by
  unfold offset? at h
  split at h
  · split at h
    · simp_all
    · split at h
      · simp only [Option.bind_eq_bind, Option.bind_eq_some_iff, Prod.exists] at h
        obtain ⟨hour, r1, h1, r2, h2, minute, r3, h3, h⟩ := h
        have := length_le_of_fixedDigits? h1
        have := length_lt_of_expect? h2
        have := length_le_of_fixedDigits? h3
        split at h
        · cases h
          simp
          omega
        · cases h
      · simp_all
  · simp_all

def datetime? (edition : Edition) (text : List Char) : Option (Value × List Char) :=
  match date? text with
  | none => (time? edition text).map fun (time, rest) => (.datetime time, rest)
  | some (date, rest) =>
    match rest with
    | c :: more =>
      if c = 'T' ∨ c = 't' ∨ c = ' ' then
        match time? edition more with
        | none => some (.datetime date, rest)
        | some (time, rest) =>
          (offset? rest).map fun (offset, rest) =>
            (.datetime (date ++ "T" ++ time ++ offset), rest)
      else some (.datetime date, rest)
    | [] => some (.datetime date, [])

theorem length_lt_of_datetime? {edition : Edition} {text rest : List Char} {value : Value}
    (h : datetime? edition text = some (value, rest)) : rest.length < text.length := by
  unfold datetime? at h
  split at h
  · obtain ⟨⟨time, after⟩, hm, he⟩ := Option.map_eq_some_iff.1 h
    have := length_lt_of_time? hm
    cases he
    omega
  · next date after hd =>
    have := length_lt_of_date? hd
    split at h
    · split at h
      · split at h
        · cases h
          omega
        · next ht =>
          have := length_lt_of_time? ht
          obtain ⟨⟨offset, after⟩, hm, he⟩ := Option.map_eq_some_iff.1 h
          have := length_le_of_offset? hm
          cases he
          simp only [List.length_cons] at *
          omega
      · cases h
        omega
    · cases h
      omega

def numeral? (edition : Edition) (text : List Char) : Option (Value × List Char) :=
  (datetime? edition text).or
    ((float? edition text).or ((namedFloat? text).or (integer? edition text)))

theorem length_lt_of_numeral? {edition : Edition} {text rest : List Char} {value : Value}
    (h : numeral? edition text = some (value, rest)) : rest.length < text.length := by
  unfold numeral? at h
  simp only [Option.or_eq_some_iff] at h
  rcases h with h | ⟨_, h | ⟨_, h | ⟨_, h⟩⟩⟩
  · exact length_lt_of_datetime? h
  · exact length_lt_of_float? h
  · exact length_lt_of_namedFloat? h
  · exact length_lt_of_integer? h

end TypedEnv.Toml
