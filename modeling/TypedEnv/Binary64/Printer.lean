import TypedEnv.Binary64

/-!
Floating-point numbers as text.  All notations print the shortest decimal, the fewest digits that
still read back as the number and among decimals of that length the one nearest to it; they differ
in a few decisions, which a `Notation64` records.

All arithmetic is exact.  Sizes are compared in quarters of a unit, `2 ^ -1076`, so that the
halfway points between a number and its neighbours are whole.
-/

namespace TypedEnv

inductive Tie where
  | even
  | up
  deriving DecidableEq

namespace Magnitude

def quartersPerOne : Nat := twoPow 1076

def quarters (size : Magnitude) : Nat := 4 * size.units

/-- Half the distance to the next smaller number, in quarters.  Below a power of two the numbers
lie twice as dense. -/
def gapBelow (size : Magnitude) : Nat :=
  if size.significand = twoPow 52 ∧ size.scale ≠ 0 then twoPow size.scale
  else 2 * twoPow size.scale

def gapAbove (size : Magnitude) : Nat := 2 * twoPow size.scale

/-- The decimal `n · 10 ^ exponent` reads back as this size: it lies strictly between the halfway
points, or on one of them where ties go to this size's even significand. -/
def readsBack (size : Magnitude) (n : Nat) (exponent : Int) : Bool :=
  let shrink := tenPow (-exponent).toNat
  let point := n * tenPow exponent.toNat * quartersPerOne
  let least := (size.quarters - size.gapBelow) * shrink
  let greatest := (size.quarters + size.gapAbove) * shrink
  if size.significand % 2 = 0 then least ≤ point && point ≤ greatest
  else least < point && point < greatest

/-- The exponent of the first digit: `10 ^ e ≤ size < 10 ^ (e + 1)`, for a size other than zero.
Even the smallest is above `10 ^ -400`. -/
def firstExponent (size : Magnitude) : Int :=
  (toDigits (size.quarters * tenPow 400 / quartersPerOne)).length - 401

def nearestOnGrid? (tie : Tie) (size : Magnitude) (exponent : Int) : Option Nat :=
  let spacing := tenPow exponent.toNat * quartersPerOne
  let scaled := size.quarters * tenPow (-exponent).toNat
  let floor := scaled / spacing
  let rest := scaled % spacing
  match size.readsBack floor exponent, size.readsBack (floor + 1) exponent with
  | false, false => none
  | true, false => some floor
  | false, true => some (floor + 1)
  | true, true =>
    if 2 * rest < spacing then some floor
    else if spacing < 2 * rest then some (floor + 1)
    else match tie with
      | .up => some (floor + 1)
      | .even => some (floor + floor % 2)

def dropZeros (n : Nat) (exponent : Int) : Nat × Int :=
  if n ≠ 0 ∧ n % 10 = 0 then dropZeros (n / 10) (exponent + 1) else (n, exponent)
termination_by n

/-- Digits and exponent of the shortest decimal; seventeen digits always read back. -/
def shortest (tie : Tie) (size : Magnitude) : Nat × Int :=
  if size.significand = 0 then (0, 0)
  else
    let first := size.firstExponent
    match (List.range 17).findSome? fun (extra : Nat) =>
        (size.nearestOnGrid? tie (first - extra)).map fun n => (n, first - (extra : Int)) with
    | some (n, exponent) => dropZeros n exponent
    | none => (0, 0)

end Magnitude

structure Notation64 where
  positional : Int → Bool
  keepsPoint : Bool
  tie : Tie

namespace Notation64

/-- Documents: positional from `10 ^ -5` below `10 ^ 16`, always recognisable as not an
integer. -/
def document : Notation64 := ⟨fun e => -5 ≤ e && e ≤ 15, true, .even⟩

def bound : Notation64 := ⟨fun _ => true, false, .up⟩

def entry : Notation64 := ⟨fun _ => true, true, .up⟩

def placePoint (notation64 : Notation64) (digits : List Char) (whole : Int) : List Char :=
  if whole ≤ 0 then '0' :: '.' :: List.replicate (-whole).toNat '0' ++ digits
  else if digits.length ≤ whole.toNat then
    digits ++ List.replicate (whole.toNat - digits.length) '0' ++
      if notation64.keepsPoint then ['.', '0'] else []
  else digits.take whole.toNat ++ '.' :: digits.drop whole.toNat

def withExponent (digits : List Char) (exponent : Int) : List Char :=
  let fraction := digits.drop 1
  digits.take 1 ++ (if fraction = [] then [] else '.' :: fraction) ++
    'e' :: (if exponent < 0 then '-' else '+') :: toDigits exponent.natAbs

def magnitudeText (notation64 : Notation64) (size : Magnitude) : List Char :=
  let (n, exponent) := size.shortest notation64.tie
  let digits := toDigits n
  let first := exponent + digits.length - 1
  if n = 0 ∨ notation64.positional first then notation64.placePoint digits (first + 1)
  else withExponent digits first

def minus (negative : Bool) : List Char := if negative then ['-'] else []

def text (notation64 : Notation64) : Binary64 → List Char
  | .nan => ['N', 'a', 'N']
  | .infinite negative => minus negative ++ ['i', 'n', 'f']
  | .finite negative size => minus negative ++ notation64.magnitudeText size

end Notation64

end TypedEnv
