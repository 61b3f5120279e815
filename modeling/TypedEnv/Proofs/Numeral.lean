import Mathlib.Data.List.TakeWhile
import TypedEnv.Json.Printer
import TypedEnv.Proofs.Binary64
import TypedEnv.Proofs.Text
import TypedEnv.Reader

/-!
Numerals of integers.  The decimal text of an integer is read back as that integer, also through the
trimming and the bounds of 64 bits, and whatever reads as an integer of 64 bits reads as a finite
number.
-/

namespace TypedEnv

open TypedEnv.Text

variable {text digits : List Char} {c : Char}

theorem isBlank_of_isDigit (h : isDigit c = true) : isBlank c = false := by
  have hdigit : 48 ≤ c.toNat ∧ c.toNat ≤ 57 := Char.isDigit_iff_toNat.1 h
  have hapart : ∀ range ∈ blanks.ranges, range.2 < 48 ∨ 57 < range.1 := by decide
  rw [← Bool.not_eq_true, isBlank, CharSet.contains_iff]
  rintro ⟨range, hmem, hlow, hhigh⟩
  have hrange := hapart range hmem
  omega

theorem isDigit_of_mem_toDigits {n : Nat} (h : c ∈ toDigits n) : isDigit c = true :=
  Nat.isDigit_of_mem_toDigits (by decide) (by decide) h

theorem ofDigits_toDigits (n : Nat) : ofDigits (toDigits n) = n := Nat.ofDigitChars_ten_toDigits

theorem wholeNumber?_eq_some_iff {n : Nat} :
    wholeNumber? text = some n ↔
      text ≠ [] ∧ (∀ c ∈ text, isDigit c = true) ∧ ofDigits text = n := by
  unfold wholeNumber?
  rw [← List.all_eq_true, ← and_assoc]
  split
  · next h => exact ⟨fun heq => ⟨h, Option.some.inj heq⟩, fun hboth => congrArg some hboth.2⟩
  · next h => exact ⟨nofun, fun hboth => absurd hboth.1 h⟩

theorem wholeNumber?_toDigits (n : Nat) : wholeNumber? (toDigits n) = some n :=
  wholeNumber?_eq_some_iff.2
    ⟨Nat.toDigits_ne_nil, fun _ => isDigit_of_mem_toDigits, ofDigits_toDigits n⟩

theorem Decimal.sign_of_forall (h : ∀ c ∈ digits, isDigit c = true) :
    Decimal.sign digits = (false, digits) := by
  unfold Decimal.sign
  split
  · exact absurd (h '-' List.mem_cons_self) (by decide)
  · exact absurd (h '+' List.mem_cons_self) (by decide)
  · rfl

theorem integer?_eq (text : List Char) :
    integer? text = (wholeNumber? (Decimal.sign text).2).map fun n =>
      Binary64.signed (Decimal.sign text).1 n := by
  unfold integer? Decimal.sign
  split
  · next digits => cases wholeNumber? digits <;> rfl
  · next digits => cases wholeNumber? digits <;> rfl
  · cases wholeNumber? text <;> rfl

theorem integer?_intText (n : Int) : integer? (Json.intText n) = some n := by
  have hdigits : ∀ c ∈ toDigits n.natAbs, isDigit c = true := fun _ => isDigit_of_mem_toDigits
  rw [integer?_eq, Json.intText]
  split
  · next hn =>
    rw [Decimal.sign, wholeNumber?_toDigits, Option.map_some, Binary64.signed, if_pos rfl,
      Int.ofNat_natAbs_of_nonpos (Int.le_of_lt hn), Int.neg_neg]
  · next hn =>
    rw [Decimal.sign_of_forall hdigits, wholeNumber?_toDigits, Option.map_some, Binary64.signed,
      if_neg Bool.false_ne_true, Int.natAbs_of_nonneg (Int.not_lt.1 hn)]

theorem int64?_eq_some_iff {n : Int} :
    int64? text = some n ↔ integer? text = some n ∧ leastInt64 ≤ n ∧ n ≤ greatestInt64 := by
  rw [int64?, Option.filter_eq_some_iff, Bool.and_eq_true, decide_eq_true_eq, decide_eq_true_eq]

theorem isBlank_of_mem_intText {n : Int} (h : c ∈ Json.intText n) : isBlank c = false := by
  rw [Json.intText] at h
  split at h
  · rcases List.mem_cons.1 h with rfl | h
    · decide
    · exact isBlank_of_isDigit (isDigit_of_mem_toDigits h)
  · exact isBlank_of_isDigit (isDigit_of_mem_toDigits h)

theorem rawInt64?_intText {n : Int} (hleast : leastInt64 ≤ n) (hgreatest : n ≤ greatestInt64) :
    rawInt64? (String.ofList (Json.intText n)) = some n := by
  rw [rawInt64?, String.toList_ofList, trim_of_forall fun _ => isBlank_of_mem_intText]
  exact int64?_eq_some_iff.2 ⟨integer?_intText n, hleast, hgreatest⟩

theorem natAbs_signed (negative : Bool) (n : Nat) : (Binary64.signed negative n).natAbs = n := by
  cases negative
  · rfl
  · exact Int.natAbs_neg n

theorem Decimal.ofNumeral?_digits (negative : Bool) (hne : digits ≠ [])
    (h : ∀ c ∈ digits, isDigit c = true) :
    Decimal.ofNumeral? negative digits = some ⟨negative, ofDigits digits, 0⟩ := by
  have hall : digits.takeWhile isDigit = digits := List.takeWhile_eq_self_iff.2 h
  have hnone : digits.dropWhile isDigit = [] := List.dropWhile_eq_nil_iff.2 h
  unfold Decimal.ofNumeral?
  rw [hall, hnone]
  simp [hne, Decimal.exponent?]

theorem toLower_of_isDigit (h : isDigit c = true) : c.toLower = c := by
  have hdigit : c.toNat ≤ 57 := (Char.isDigit_iff_toNat.1 h).2
  unfold Char.toLower
  rw [dif_neg]
  rintro ⟨hupper, -⟩
  have hlow : c.val.toNat < 'A'.val.toNat := Nat.lt_of_le_of_lt hdigit (by decide)
  exact absurd (UInt32.le_iff_toNat_le.1 hupper) (Nat.not_le.2 hlow)

theorem ofList_toLower_ne {name : String} (hne : digits ≠ []) (h : ∀ c ∈ digits, isDigit c = true)
    (hname : name.toList.head?.any isDigit = false) :
    String.ofList (digits.map Char.toLower) ≠ name := by
  rintro rfl
  obtain ⟨first, rest, rfl⟩ := List.exists_cons_of_ne_nil hne
  have hfirst : isDigit first = true := h first List.mem_cons_self
  rw [String.toList_ofList, List.map_cons, toLower_of_isDigit hfirst, List.head?_cons,
    Option.any_some, hfirst] at hname
  cases hname

theorem ofDecimal_whole (negative : Bool) (n : Nat) :
    Binary64.ofDecimal ⟨negative, n, 0⟩ = Binary64.ofRatio negative n 1 := by
  unfold Binary64.ofDecimal
  dsimp only
  split
  · next hzero =>
    have hnone : 0 * Binary64.unitsPerOne = 1 * Magnitude.zero.units := by rw [Nat.zero_mul]; rfl
    rw [hzero, Binary64.ofRatio_of_units negative Nat.one_pos hnone]
    rfl
  · rw [if_neg (by decide), if_neg (by omega), if_pos (Int.le_refl 0), Int.toNat_zero, tenPow_zero,
      Nat.mul_one]

theorem exists_rawFinite?_of_rawInt64? {raw : String} {n : Int} (h : rawInt64? raw = some n) :
    ∃ negative size, n = Binary64.signed negative size ∧ size < twoPow 64 ∧
      rawFinite? raw = some (.ofRatio negative size 1) := by
  obtain ⟨hint, hleast, hgreatest⟩ := int64?_eq_some_iff.1 h
  rw [rawFinite?]
  generalize trim raw.toList = text at hint ⊢
  rw [integer?_eq] at hint
  obtain ⟨size, hsize, rfl⟩ := Option.map_eq_some_iff.1 hint
  obtain ⟨hne, hdigits, hvalue⟩ := wholeNumber?_eq_some_iff.1 hsize
  have hbound : size < twoPow 64 := by
    rw [← natAbs_signed (Decimal.sign text).1 size]
    have hpower : twoPow 64 = 18446744073709551616 := by decide
    rw [leastInt64] at hleast
    rw [greatestInt64] at hgreatest
    omega
  have hread : Binary64.ofText? text =
      some (Binary64.ofRatio (Decimal.sign text).1 size 1) := by
    unfold Binary64.ofText?
    dsimp only
    rw [if_neg (not_or.2 ⟨ofList_toLower_ne hne hdigits (by decide),
        ofList_toLower_ne hne hdigits (by decide)⟩),
      if_neg (ofList_toLower_ne hne hdigits (by decide)),
      Decimal.ofNumeral?_digits _ hne hdigits, hvalue, Option.map_some, ofDecimal_whole]
  have hfinite : (Binary64.ofRatio (Decimal.sign text).1 size 1).isFinite = true := by
    obtain ⟨packed, hpacked, -⟩ :=
      Binary64.exists_ofRatio_one (Decimal.sign text).1 hbound (by decide) rfl
    rw [hpacked]
    rfl
  refine ⟨_, size, rfl, hbound, ?_⟩
  rw [hread, Option.filter_some, if_pos hfinite]

theorem isSome_rawFinite?_of_rawInt64? {raw : String} {n : Int} (h : rawInt64? raw = some n) :
    (rawFinite? raw).isSome = true := by
  obtain ⟨negative, size, -, -, hread⟩ := exists_rawFinite?_of_rawInt64? h
  rw [hread]
  rfl

namespace Leaf

variable {raw : String} {n : Int}

theorem accepts_int (raw : String) : int.accepts raw = (rawInt64? raw).isSome := by
  rw [int]

theorem accepts_number (raw : String) : number.accepts raw = (rawFinite? raw).isSome := by
  rw [number]

theorem parse_int (h : rawInt64? raw = some n) : int.parse raw = .int n := by
  dsimp only [int]
  rw [h]

theorem parse_number_of_int (h : rawInt64? raw = some n) : number.parse raw = .int n := by
  dsimp only [number]
  rw [h]

end Leaf

end TypedEnv
