import TypedEnv.Decimal

/-!
Floating-point numbers of the IEEE binary64 format, as exact data.  A finite number is a
significand below `2 ^ 53` times `2 ^ scale` units, a unit being `2 ^ -1074`; the representation
is unique, so equal data means equal numbers, except that zero has two signs.
-/

namespace TypedEnv

def greatestScale : Nat := 2045

/-- The size of a finite number, `significand · 2 ^ scale` units. -/
structure Magnitude where
  significand : Nat
  scale : Nat
  significand_lt : significand < twoPow 53
  scale_le : scale ≤ greatestScale
  normal : scale = 0 ∨ twoPow 52 ≤ significand
  deriving DecidableEq

def Magnitude.zero : Magnitude := ⟨0, 0, twoPow_pos 53, Nat.zero_le _, .inl rfl⟩

def Magnitude.units (size : Magnitude) : Nat := size.significand * twoPow size.scale

inductive Binary64 where
  | nan
  | infinite (negative : Bool)
  | finite (negative : Bool) (size : Magnitude)
  deriving DecidableEq

namespace Binary64

def unitsPerOne : Nat := twoPow 1074

def unitsOfInfinity : Nat := twoPow 53 * twoPow greatestScale

theorem units_lt_unitsOfInfinity (size : Magnitude) : size.units < unitsOfInfinity := by
  unfold Magnitude.units unitsOfInfinity
  calc size.significand * twoPow size.scale
      < twoPow 53 * twoPow size.scale :=
        Nat.mul_lt_mul_of_pos_right size.significand_lt (twoPow_pos _)
    _ ≤ twoPow 53 * twoPow greatestScale :=
        Nat.mul_le_mul_left _ (twoPow_le_twoPow size.scale_le)

def signed (negative : Bool) (n : Nat) : Int := if negative then -(n : Int) else n

/-- The place of a number in the order of all numbers; NaN has none. -/
def rank : Binary64 → Option Int
  | nan => none
  | infinite negative => some (signed negative unitsOfInfinity)
  | finite negative size => some (signed negative size.units)

def isFinite : Binary64 → Bool
  | finite _ _ => true
  | _ => false

def below (x y : Binary64) : Bool :=
  match x.rank, y.rank with
  | some m, some n => m < n
  | _, _ => false

def same (x y : Binary64) : Bool :=
  match x.rank, y.rank with
  | some m, some n => m == n
  | _, _ => false

def neg : Binary64 → Binary64
  | nan => nan
  | infinite negative => infinite !negative
  | finite negative size => finite (!negative) size

/-- The quotient to the nearest whole number, a half going to the even one. -/
def roundDiv (num den : Nat) : Nat :=
  let quotient := num / den
  let rest := num % den
  if 2 * rest < den then quotient
  else if den < 2 * rest then quotient + 1
  else quotient + quotient % 2

/-- `significand · 2 ^ scale` units, where a significand of `2 ^ 53` has grown out of its scale;
infinite when the scale is too large. -/
def pack (negative : Bool) (significand scale : Nat) : Binary64 :=
  let (m, s) := if significand = twoPow 53 then (twoPow 52, scale + 1) else (significand, scale)
  if h : m < twoPow 53 ∧ s ≤ greatestScale ∧ (s = 0 ∨ twoPow 52 ≤ m) then
    finite negative ⟨m, s, h.1, h.2.1, h.2.2⟩
  else infinite negative

/-- The number nearest to `num / den`, the even significand on a tie. -/
def ofRatio (negative : Bool) (num den : Nat) : Binary64 :=
  let units := num * unitsPerOne
  let scale := (units / den).log2 - 52
  pack negative (roundDiv units (den * twoPow scale)) scale

def zero (negative : Bool) : Binary64 :=
  finite negative .zero

def ofInt (n : Int) : Binary64 := ofRatio (n < 0) n.natAbs 1

/-- The number nearest to a decimal.  Decimals far outside the range are settled by their
exponent alone: above `10 ^ 400` all is infinite, below `10 ^ -400` all is zero. -/
def ofDecimal (d : Decimal) : Binary64 :=
  if d.digits = 0 then zero d.negative
  else if 400 < d.exponent then infinite d.negative
  else if d.exponent + d.digits.log2 + 1 < -400 then zero d.negative
  else if 0 ≤ d.exponent then ofRatio d.negative (d.digits * tenPow d.exponent.toNat) 1
  else ofRatio d.negative d.digits (tenPow (-d.exponent).toNat)

def times (x : Binary64) (size : Magnitude) : Binary64 :=
  match x with
  | finite negative left => ofRatio negative (left.units * size.units) (unitsPerOne * unitsPerOne)
  | other => other

def dividedBy (x : Binary64) (size : Magnitude) : Binary64 :=
  match x with
  | finite negative left => ofRatio negative left.units size.units
  | other => other

def ofText? (text : List Char) : Option Binary64 :=
  let (negative, rest) := Decimal.sign text
  let name := String.ofList (rest.map Char.toLower)
  if name = "inf" ∨ name = "infinity" then some (infinite negative)
  else if name = "nan" then some nan
  else (Decimal.ofNumeral? negative rest).map ofDecimal

@[simp] theorem not_below_nan (x : Binary64) : x.below nan = false := by
  cases x <;> rfl

end Binary64

end TypedEnv
