/-!
The two bases that numbers are written to here.  In base two only powers count; in base ten there
are numerals, for whole numbers within bounds and for decimal fractions with an exponent.
-/

namespace TypedEnv

def twoPow (n : Nat) : Nat := Nat.pow 2 n

def tenPow (n : Nat) : Nat := Nat.pow 10 n

@[simp] theorem twoPow_zero : twoPow 0 = 1 := rfl

theorem twoPow_succ (n : Nat) : twoPow (n + 1) = twoPow n * 2 := rfl

@[simp] theorem tenPow_zero : tenPow 0 = 1 := rfl

theorem tenPow_succ (n : Nat) : tenPow (n + 1) = tenPow n * 10 := rfl

theorem twoPow_pos (n : Nat) : 0 < twoPow n := Nat.pow_pos Nat.zero_lt_two

theorem tenPow_pos (n : Nat) : 0 < tenPow n := Nat.pow_pos (Nat.zero_lt_succ 9)

theorem twoPow_le_twoPow {m n : Nat} (h : m ≤ n) : twoPow m ≤ twoPow n :=
  Nat.pow_le_pow_right Nat.zero_lt_two h

def isDigit (c : Char) : Bool := c.isDigit

def digitValue (c : Char) : Nat := c.toNat - '0'.toNat

def ofDigits (digits : List Char) : Nat :=
  digits.foldl (fun n c => 10 * n + digitValue c) 0

def toDigits (n : Nat) : List Char := Nat.toDigits 10 n

def wholeNumber? (text : List Char) : Option Nat :=
  if text ≠ [] ∧ text.all isDigit then some (ofDigits text) else none

def integer? : List Char → Option Int
  | '-' :: digits => (wholeNumber? digits).map fun n => -(n : Int)
  | '+' :: digits => (wholeNumber? digits).map fun n => (n : Int)
  | digits => (wholeNumber? digits).map fun n => (n : Int)

def leastInt64 : Int := -9223372036854775808

def greatestInt64 : Int := 9223372036854775807

def int64? (text : List Char) : Option Int :=
  (integer? text).filter fun n => leastInt64 ≤ n && n ≤ greatestInt64

def naturalBelow? (bound : Nat) (text : List Char) : Option Nat :=
  let digits := match text with
    | '+' :: digits => digits
    | digits => digits
  (wholeNumber? digits).filter (· < bound)

/-- The number `± digits · 10 ^ exponent`. -/
structure Decimal where
  negative : Bool
  digits : Nat
  exponent : Int
  deriving DecidableEq, Repr

namespace Decimal

def sign : List Char → Bool × List Char
  | '-' :: rest => (true, rest)
  | '+' :: rest => (false, rest)
  | text => (false, text)

theorem length_sign_le (text : List Char) : (sign text).2.length ≤ text.length := by
  unfold sign
  split <;> simp

def exponent? : List Char → Option Int
  | [] => some 0
  | c :: rest => if c = 'e' ∨ c = 'E' then integer? rest else none

/-- Digits with at most one point among or around them, at least one digit, and an exponent. -/
def ofNumeral? (negative : Bool) (text : List Char) : Option Decimal :=
  let whole := text.takeWhile isDigit
  let (places, tail) := match text.dropWhile isDigit with
    | '.' :: rest => (rest.takeWhile isDigit, rest.dropWhile isDigit)
    | rest => ([], rest)
  if whole = [] ∧ places = [] then none
  else (exponent? tail).map fun exponent =>
    ⟨negative, ofDigits (whole ++ places), exponent - places.length⟩

end Decimal

end TypedEnv
