import TypedEnv.Proofs.Binary64

/-!
Rounding whole numbers to numbers of the format.  A whole number comes to the nearest finite number,
and of two nearest ones to the one with an even significand; so no finite number lies strictly
between the two.
-/

namespace TypedEnv

namespace Binary64

theorem mul_unitsPerOne_lt {m n : Int} (h : m < n) : m * unitsPerOne < n * unitsPerOne := by
  have hpos : 0 < unitsPerOne := by
    rw [unitsPerOne]
    exact twoPow_pos 1074
  exact Int.mul_lt_mul_of_pos_right h (Int.natCast_pos.2 hpos)

def distance (n : Int) (negative : Bool) (size : Magnitude) : Nat :=
  (signed negative size.units - n * unitsPerOne).natAbs

/-- The finite number that an integer comes to: a nearest one, with an even significand if the
integer lies halfway between two. -/
structure Rounds (n : Int) (negative : Bool) (size : Magnitude) : Prop where
  nearest : ∀ other otherSize, distance n negative size ≤ distance n other otherSize
  even : ∀ other otherSize, distance n negative size = distance n other otherSize →
    signed other otherSize.units = signed negative size.units ∨ size.significand % 2 = 0

theorem roundDiv_error (num : Nat) {den : Nat} (hden : 0 < den) :
    2 * (roundDiv num den * den - num : Int).natAbs ≤ den ∧
      (2 * (roundDiv num den * den - num : Int).natAbs = den → roundDiv num den % 2 = 0) := by
  have hsplit : num / den * den + num % den = num := Nat.div_add_mod' num den
  have hrest : num % den < den := Nat.mod_lt num hden
  unfold roundDiv
  dsimp only
  split
  · omega
  · split
    · have hnext : (num / den + 1) * den = num / den * den + den := Nat.succ_mul _ _
      omega
    · rcases Nat.mod_two_eq_zero_or_one (num / den) with heven | hodd
      · rw [heven, Nat.add_zero]
        omega
      · have hnext : (num / den + 1) * den = num / den * den + den := Nat.succ_mul _ _
        rw [hodd]
        omega

theorem le_natAbs_sub_of_ne {k m : Nat} (h : k ≠ m) (den : Nat) :
    den ≤ (k * den - m * den : Int).natAbs := by
  have hfactor : (k * den - m * den : Int) = (k - m) * den := (Int.sub_mul _ _ _).symm
  have hapart : 1 ≤ (k - m : Int).natAbs := by omega
  rw [hfactor, Int.natAbs_mul, Int.natAbs_natCast]
  exact Nat.le_mul_of_pos_left den hapart

theorem roundDiv_nearest (num : Nat) {den : Nat} (hden : 0 < den) (k : Nat) :
    (roundDiv num den * den - num : Int).natAbs ≤ (k * den - num : Int).natAbs ∧
      ((roundDiv num den * den - num : Int).natAbs = (k * den - num : Int).natAbs →
        k = roundDiv num den ∨ roundDiv num den % 2 = 0) := by
  obtain ⟨herror, heven⟩ := roundDiv_error num hden
  by_cases hk : k = roundDiv num den
  · rw [hk]
    exact ⟨Nat.le_refl _, fun _ => Or.inl rfl⟩
  · have hapart := le_natAbs_sub_of_ne hk den
    exact ⟨by omega, fun htie => Or.inr (heven (by omega))⟩

theorem units_eq_mul_of_le {size : Magnitude} {scale : Nat} (h : scale ≤ size.scale) :
    size.units = size.significand * twoPow (size.scale - scale) * twoPow scale := by
  rw [Nat.mul_assoc, ← twoPow_add, Nat.sub_add_cancel h, Magnitude.units]

theorem units_lt_of_scale_lt {size : Magnitude} {units : Nat}
    (h : size.scale < units.log2 - 52) :
    size.units < units / twoPow (units.log2 - 52) * twoPow (units.log2 - 52) := by
  have hscale : units.log2 - 52 ≠ 0 := Nat.ne_of_gt (Nat.lt_of_le_of_lt (Nat.zero_le _) h)
  calc size.units < twoPow 53 * twoPow size.scale :=
        Nat.mul_lt_mul_of_pos_right size.significand_lt (twoPow_pos _)
    _ = twoPow 52 * twoPow (size.scale + 1) := by
        rw [twoPow_succ size.scale, twoPow_succ 52, Nat.mul_comm (twoPow size.scale), Nat.mul_assoc]
    _ ≤ twoPow 52 * twoPow (units.log2 - 52) := Nat.mul_le_mul_left _ (twoPow_le_twoPow h)
    _ ≤ units / twoPow (units.log2 - 52) * twoPow (units.log2 - 52) :=
        Nat.mul_le_mul_right _ (le_div_scale hscale)

/-- Among all magnitudes, not only those of its scale, the rounded quotient is nearest. -/
theorem roundDiv_nearest_units {units scale : Nat} (hscale : units.log2 - 52 = scale)
    (size : Magnitude) :
    (roundDiv units (twoPow scale) * twoPow scale - units : Int).natAbs ≤
        (size.units - units : Int).natAbs ∧
      ((roundDiv units (twoPow scale) * twoPow scale - units : Int).natAbs =
          (size.units - units : Int).natAbs →
        size.units = roundDiv units (twoPow scale) * twoPow scale ∨
          roundDiv units (twoPow scale) % 2 = 0) := by
  have hpos : 0 < twoPow scale := twoPow_pos scale
  rcases Nat.lt_or_ge size.scale scale with hlt | hge
  · -- A finer magnitude lies below the quotient rounded down, which is no nearer itself.
    have hbelow : size.units < units / twoPow scale * twoPow scale := by
      rw [← hscale] at hlt ⊢
      exact units_lt_of_scale_lt hlt
    have hfloor : units / twoPow scale * twoPow scale ≤ units := Nat.div_mul_le_self _ _
    have hnearest := (roundDiv_nearest units hpos (units / twoPow scale)).1
    exact ⟨by omega, fun htie => by omega⟩
  · obtain ⟨hnearest, htie⟩ := roundDiv_nearest units hpos
      (size.significand * twoPow (size.scale - scale))
    rw [units_eq_mul_of_le hge, Int.natCast_mul]
    exact ⟨hnearest, fun h => (htie h).imp (congrArg (· * twoPow scale)) id⟩

theorem signed_zero (negative : Bool) : signed negative 0 = 0 := by
  cases negative <;> rfl

theorem signed_mul (negative : Bool) (m n : Nat) :
    signed negative m * n = signed negative (m * n) := by
  cases negative
  · exact (Int.natCast_mul m n).symm
  · simp only [signed, if_true, Int.natCast_mul, Int.neg_mul]

theorem distance_signed (negative : Bool) (num : Nat) (size : Magnitude) :
    distance (signed negative num) negative size =
      (size.units - (num * unitsPerOne : Nat) : Int).natAbs := by
  rw [distance, signed_mul]
  cases negative
  · rfl
  · simp only [signed, if_true]
    omega

theorem distance_signed_not (negative : Bool) (num : Nat) (size : Magnitude) :
    distance (signed negative num) (!negative) size = size.units + num * unitsPerOne := by
  rw [distance, signed_mul]
  cases negative
  · simp only [signed, Bool.not_false, if_true, Bool.false_eq_true, if_false]
    omega
  · simp only [signed, Bool.not_true, if_true, Bool.false_eq_true, if_false]
    omega

/-- What is nearest on the integer's side of zero is nearest altogether: on the other side nothing
is nearer than zero. -/
theorem rounds_of_nearest {negative : Bool} {num : Nat} {size : Magnitude}
    (h : ∀ other : Magnitude,
      (size.units - (num * unitsPerOne : Nat) : Int).natAbs ≤
          (other.units - (num * unitsPerOne : Nat) : Int).natAbs ∧
        ((size.units - (num * unitsPerOne : Nat) : Int).natAbs =
            (other.units - (num * unitsPerOne : Nat) : Int).natAbs →
          other.units = size.units ∨ size.significand % 2 = 0)) :
    Rounds (signed negative num) negative size := by
  obtain ⟨hzero, hzeroTie⟩ := h .zero
  have hnone : Magnitude.zero.units = 0 := Nat.zero_mul _
  constructor
  · intro other otherSize
    by_cases hside : other = negative
    · rw [hside, distance_signed, distance_signed]
      exact (h otherSize).1
    · rw [Bool.eq_not_of_ne hside, distance_signed, distance_signed_not]
      omega
  · intro other otherSize htie
    by_cases hside : other = negative
    · rw [hside, distance_signed, distance_signed] at htie
      rw [hside]
      exact ((h otherSize).2 htie).imp (congrArg _) id
    · rw [Bool.eq_not_of_ne hside, distance_signed, distance_signed_not] at htie
      have hother : otherSize.units = 0 := by omega
      rw [hother, signed_zero]
      refine (hzeroTie (by omega)).imp (fun hsize => ?_) id
      rw [← hsize, hnone, signed_zero]

theorem exists_rounds (negative : Bool) {num places : Nat} (h : num < twoPow places)
    (hplaces : places ≤ 1023) :
    ∃ size, ofRatio negative num 1 = finite negative size ∧
      Rounds (signed negative num) negative size := by
  obtain ⟨size, hratio, hunits, hsignificand⟩ := exists_ofRatio_one negative h hplaces rfl
  refine ⟨size, hratio, rounds_of_nearest fun other => ?_⟩
  obtain ⟨hle, htie⟩ := @roundDiv_nearest_units (num * unitsPerOne) _ rfl other
  rw [hunits, Int.natCast_mul (roundDiv _ _)]
  exact ⟨hle, fun heq => (htie heq).imp id hsignificand⟩

namespace Rounds

variable {n place : Int} {negative : Bool} {size : Magnitude} {x : Binary64}

theorem natAbs_lt_unitsOfInfinity (h : n.natAbs < twoPow 64) :
    (n * unitsPerOne : Int).natAbs < unitsOfInfinity := by
  have hscale : 64 + 1074 ≤ 53 + greatestScale := by decide
  rw [unitsPerOne, unitsOfInfinity, ← twoPow_add, Int.natAbs_mul, Int.natAbs_natCast]
  calc n.natAbs * twoPow 1074 < twoPow 64 * twoPow 1074 :=
        Nat.mul_lt_mul_of_pos_right h (twoPow_pos 1074)
    _ = twoPow (64 + 1074) := (twoPow_add 64 1074).symm
    _ ≤ twoPow (53 + greatestScale) := twoPow_le_twoPow hscale

theorem between (h : Rounds n negative size) (hn : n.natAbs < twoPow 64)
    (hx : x.rank = some place) :
    (signed negative size.units < place → n * unitsPerOne < place) ∧
      (place < signed negative size.units → place < n * unitsPerOne) := by
  cases x with
  | nan => cases hx
  | infinite other =>
    cases hx
    have hinteger := natAbs_lt_unitsOfInfinity hn
    have hfinite := units_lt_unitsOfInfinity size
    cases other <;> cases negative <;> simp only [signed, if_true] <;> omega
  | finite other otherSize =>
    cases hx
    have hnearest := h.nearest other otherSize
    rw [distance, distance] at hnearest
    omega

theorem units_eq (h : Rounds n negative size) (hn : n.natAbs ≤ twoPow 53) :
    signed negative size.units = n * unitsPerOne := by
  obtain ⟨exact, hexact⟩ := exists_units_of_le hn
  have hplace : signed (n < 0) exact.units = n * unitsPerOne := by
    rw [hexact, ← signed_mul]
    congr 1
    by_cases hneg : n < 0
    · rw [decide_eq_true hneg, signed, if_pos rfl]
      omega
    · rw [decide_eq_false hneg, signed, if_neg Bool.false_ne_true]
      omega
  have hnearest := h.nearest (n < 0) exact
  rw [distance, distance, hplace] at hnearest
  omega

end Rounds

end Binary64

end TypedEnv
