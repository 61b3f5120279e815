import TypedEnv.Document
import TypedEnv.Json.Fault

/-!
Numbers of JSON.  An integer that fits 64 bits, with or without a sign, is kept exactly.  Any other
number is a floating-point number: of its digits the leading ones that fit 64 bits are rounded to a
significand, which is then scaled once by a power of ten.
-/

namespace TypedEnv.Json

open TypedEnv.Text

def significandBound : Nat := twoPow 64

/-- Takes digits into a significand while it stays below the bound; returns the significand and
the digits that found no room. -/
def gather : Nat → List Char → Nat × List Char
  | significand, [] => (significand, [])
  | significand, c :: rest =>
    let next := significand * 10 + digitValue c
    if next < significandBound then gather next rest else (significand, c :: rest)

def powerOfTen (n : Nat) : Magnitude :=
  match Binary64.ofRatio false (tenPow n) 1 with
  | .finite _ size => size
  | _ => .zero

def greatestPower : Nat := 308

/-- Multiplies by `10 ^ exponent`, in steps that stay within the range of powers.  There is no
result when the number grows out of range. -/
def scale (x : Binary64) (exponent : Int) : Option Binary64 :=
  if exponent < -(greatestPower : Int) then
    if x = .zero false then some x
    else scale (x.dividedBy (powerOfTen greatestPower)) (exponent + greatestPower)
  else if exponent < 0 then some (x.dividedBy (powerOfTen exponent.natAbs))
  else if exponent ≤ greatestPower then
    some (x.times (powerOfTen exponent.natAbs)) |>.filter Binary64.isFinite
  else if x = .zero false then some x
  else none
termination_by exponent.natAbs
decreasing_by unfold greatestPower at *; omega

abbrev Numeral := Document × List Char

def assemble (negative : Bool) (significand : Nat) (exponent : Int) (rest : List Char) :
    Except Fault Numeral :=
  match scale (.ofInt significand) exponent with
  | none => .error (.before .numberOutOfRange rest)
  | some x => .ok (.float (if negative then x.neg else x), rest)

def exponentBound : Nat := twoPow 31

/-- Takes digits into an exponent; `none` when it outgrows the bound, with the text after the digit
that did it. -/
def gatherExponent : Nat → List Char → Option Nat × List Char
  | exponent, [] => (some exponent, [])
  | exponent, c :: rest =>
    if isDigit c then
      let next := exponent * 10 + digitValue c
      if next < exponentBound then gatherExponent next rest else (none, rest)
    else (some exponent, c :: rest)

def exponentPart (negative : Bool) (significand : Nat) (start : Int) (text : List Char) :
    Except Fault Numeral :=
  let (down, digits) := Decimal.sign text
  match digits with
  | [] => .error (.before .endInValue [])
  | c :: rest =>
    if isDigit c then
      match gatherExponent (digitValue c) rest with
      | (some exponent, rest) =>
        assemble negative significand (if down then start - exponent else start + exponent) rest
      | (none, rest) =>
        if significand ≠ 0 ∧ down = false then .error (.before .numberOutOfRange rest)
        else .ok (.float (.zero negative), rest.dropWhile isDigit)
    else .error (.on .invalidNumber (c :: rest))

def afterDigits (negative : Bool) (significand : Nat) (exponent : Int) (text : List Char) :
    Except Fault Numeral :=
  match text with
  | c :: rest =>
    if c = 'e' ∨ c = 'E' then exponentPart negative significand exponent rest
    else assemble negative significand exponent text
  | [] => assemble negative significand exponent text

def fractionPart (negative : Bool) (significand : Nat) (exponent : Int) (text : List Char) :
    Except Fault Numeral :=
  let digits := text.takeWhile isDigit
  let rest := text.dropWhile isDigit
  if digits = [] then
    .error (.on (if rest = [] then .endInValue else .invalidNumber) rest)
  else
    let (significand, dropped) := gather significand digits
    afterDigits negative significand (exponent - (digits.length - dropped.length)) rest

def afterWhole (negative : Bool) (significand extra : Nat) (text : List Char) :
    Except Fault Numeral :=
  match text with
  | '.' :: rest => fractionPart negative significand extra rest
  | _ =>
    match text with
    | c :: rest =>
      if c = 'e' ∨ c = 'E' then exponentPart negative significand extra rest
      else whole
    | [] => whole
where
  whole : Except Fault Numeral :=
    if extra ≠ 0 then assemble negative significand extra text
    else if negative = false then .ok (.int significand, text)
    else if significand = 0 ∨ leastInt64.natAbs < significand then
      .ok (.float (Binary64.ofInt significand).neg, text)
    else .ok (.int (-significand), text)

def number (negative : Bool) (text : List Char) : Except Fault Numeral :=
  match text with
  | [] => .error (.before .endInValue [])
  | c :: rest =>
    if c = '0' then
      match rest with
      | d :: _ =>
        if isDigit d then .error (.on .invalidNumber rest)
        else afterWhole negative 0 0 rest
      | [] => afterWhole negative 0 0 rest
    else if isDigit c then
      let (significand, dropped) := gather 0 (text.takeWhile isDigit)
      afterWhole negative significand dropped.length (text.dropWhile isDigit)
    else .error (.on .invalidNumber text)

theorem rest_of_assemble {negative : Bool} {significand : Nat} {exponent : Int}
    {rest after : List Char} {value : Document}
    (h : assemble negative significand exponent rest = .ok (value, after)) : after = rest := by
  unfold assemble at h
  split at h <;> simp_all

theorem length_gatherExponent_le (exponent : Nat) (text : List Char) :
    (gatherExponent exponent text).2.length ≤ text.length := by
  fun_induction gatherExponent exponent text with
  | case1 => exact Nat.le_refl _
  | case2 _ _ _ _ _ _ ih => exact Nat.le_succ_of_le ih
  | case3 => exact Nat.le_succ _
  | case4 => exact Nat.le_refl _

theorem length_le_of_exponentPart {negative : Bool} {significand : Nat} {start : Int}
    {text after : List Char} {value : Document}
    (h : exponentPart negative significand start text = .ok (value, after)) :
    after.length ≤ text.length := by
  have hsign := Decimal.length_sign_le text
  unfold exponentPart at h
  dsimp only at h
  split at h
  · simp at h
  · next c rest hd =>
    rw [hd] at hsign
    simp only [List.length_cons] at hsign
    have hgather := length_gatherExponent_le (digitValue c) rest
    split at h
    · split at h
      · next hg =>
        rw [hg] at hgather
        rw [rest_of_assemble h]
        dsimp only at hgather
        omega
      · next hg =>
        rw [hg] at hgather
        dsimp only at hgather
        split at h
        · simp at h
        · simp only [Except.ok.injEq, Prod.mk.injEq] at h
          rw [← h.2]
          have := length_dropWhile_le isDigit ‹List Char›
          omega
    · simp at h

theorem length_le_of_afterDigits {negative : Bool} {significand : Nat} {exponent : Int}
    {text after : List Char} {value : Document}
    (h : afterDigits negative significand exponent text = .ok (value, after)) :
    after.length ≤ text.length := by
  unfold afterDigits at h
  split at h
  · split at h
    · have := length_le_of_exponentPart h
      simp only [List.length_cons]
      omega
    · exact Nat.le_of_eq (congrArg List.length (rest_of_assemble h))
  · exact Nat.le_of_eq (congrArg List.length (rest_of_assemble h))

theorem length_le_of_fractionPart {negative : Bool} {significand : Nat} {exponent : Int}
    {text after : List Char} {value : Document}
    (h : fractionPart negative significand exponent text = .ok (value, after)) :
    after.length ≤ text.length := by
  unfold fractionPart at h
  dsimp only at h
  split at h
  · simp at h
  · exact Nat.le_trans (length_le_of_afterDigits h) (length_dropWhile_le isDigit text)

theorem rest_of_whole {negative : Bool} {significand extra : Nat}
    {text after : List Char} {value : Document}
    (h : afterWhole.whole negative significand extra text = .ok (value, after)) :
    after = text := by
  unfold afterWhole.whole at h
  split at h
  · exact rest_of_assemble h
  · split at h
    · simp_all
    · split at h <;> simp_all

theorem length_le_of_afterWhole {negative : Bool} {significand extra : Nat}
    {text after : List Char} {value : Document}
    (h : afterWhole negative significand extra text = .ok (value, after)) :
    after.length ≤ text.length := by
  unfold afterWhole at h
  split at h
  · have := length_le_of_fractionPart h
    simp only [List.length_cons]
    omega
  · split at h
    · split at h
      · have := length_le_of_exponentPart h
        simp only [List.length_cons]
        omega
      · exact Nat.le_of_eq (congrArg List.length (rest_of_whole h))
    · exact Nat.le_of_eq (congrArg List.length (rest_of_whole h))

theorem length_lt_of_number {negative : Bool} {text after : List Char} {value : Document}
    (h : number negative text = .ok (value, after)) : after.length < text.length := by
  unfold number at h
  split at h
  · simp at h
  · next c rest =>
    split at h
    · have : after.length ≤ rest.length := by
        split at h
        · split at h
          · simp at h
          · exact length_le_of_afterWhole h
        · exact length_le_of_afterWhole h
      simp only [List.length_cons]
      omega
    · split at h
      · next hc =>
        have h1 := length_le_of_afterWhole h
        have h2 := length_dropWhile_le isDigit rest
        rw [List.dropWhile_cons_of_pos hc] at h1
        simp only [List.length_cons]
        omega
      · simp at h

end TypedEnv.Json
