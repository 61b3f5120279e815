import Mathlib.Data.Nat.Log
import TypedEnv.Binary64

/-!
Rounding is exact where it can be: a ratio that is the size of a finite number comes to that number,
and whole numbers up to `2 ^ 53` are finite numbers.  Larger whole numbers stay finite far beyond
the range of integers.
-/

namespace TypedEnv

theorem twoPow_add (m n : Nat) : twoPow (m + n) = twoPow m * twoPow n := Nat.pow_add 2 m n

theorem log2_mul_twoPow {n : Nat} (h : n ≠ 0) (shift : Nat) :
    (n * twoPow shift).log2 = n.log2 + shift := by
  induction shift with
  | zero => rw [twoPow_zero, Nat.mul_one, Nat.add_zero]
  | succ shift ih =>
    have hne : n * twoPow shift ≠ 0 := Nat.mul_ne_zero h (Nat.ne_of_gt (twoPow_pos shift))
    rw [twoPow_succ, ← Nat.mul_assoc, Nat.log2_eq_log_two, Nat.log_mul_base Nat.one_lt_two hne,
      ← Nat.log2_eq_log_two, ih, Nat.add_assoc]

namespace Magnitude

/-- The scale is what the logarithm has beyond the 52 places after the first. -/
theorem log2_units (size : Magnitude) : size.units.log2 - 52 = size.scale := by
  unfold units
  by_cases hzero : size.significand = 0
  · have hscale : size.scale = 0 := by
      refine size.normal.resolve_right fun hnormal => ?_
      rw [hzero] at hnormal
      exact absurd (twoPow_pos 52) (Nat.not_lt.2 hnormal)
    rw [hzero, hscale]
    rfl
  · have hlt : size.significand.log2 < 53 := (Nat.log2_lt hzero).2 size.significand_lt
    rw [log2_mul_twoPow hzero]
    rcases size.normal with hscale | hnormal
    · omega
    · have hle : 52 ≤ size.significand.log2 := (Nat.le_log2 hzero).2 hnormal
      omega

theorem units_inj {a b : Magnitude} (h : a.units = b.units) : a = b := by
  have hscale : a.scale = b.scale := by rw [← a.log2_units, ← b.log2_units, h]
  have hsignificand : a.significand = b.significand := by
    rw [units, units, hscale] at h
    exact Nat.eq_of_mul_eq_mul_right (twoPow_pos _) h
  cases a
  cases b
  simp_all

theorem exists_units {n shift : Nat} (hn : n < twoPow 53) (hfirst : 52 ≤ shift)
    (hlast : shift ≤ greatestScale) : ∃ size : Magnitude, size.units = n * twoPow shift := by
  by_cases hzero : n = 0
  · exact ⟨.zero, by rw [hzero, Nat.zero_mul]; rfl⟩
  · have hlog : n.log2 < 53 := (Nat.log2_lt hzero).2 hn
    have hsum : 52 - n.log2 + (shift - (52 - n.log2)) = shift := by omega
    have hlower : twoPow 52 ≤ n * twoPow (52 - n.log2) := by
      calc twoPow 52 = twoPow n.log2 * twoPow (52 - n.log2) := by
            rw [← twoPow_add, Nat.add_sub_cancel' (Nat.le_of_lt_succ hlog)]
        _ ≤ n * twoPow (52 - n.log2) := Nat.mul_le_mul_right _ (Nat.log2_self_le hzero)
    have hupper : n * twoPow (52 - n.log2) < twoPow 53 := by
      calc n * twoPow (52 - n.log2)
          < twoPow (n.log2 + 1) * twoPow (52 - n.log2) :=
            Nat.mul_lt_mul_of_pos_right Nat.lt_log2_self (twoPow_pos _)
        _ = twoPow 53 := by
            rw [← twoPow_add]
            congr 1
            omega
    refine ⟨⟨n * twoPow (52 - n.log2), shift - (52 - n.log2), hupper, ?_, Or.inr hlower⟩, ?_⟩
    · exact Nat.le_trans (Nat.sub_le _ _) hlast
    · rw [units, Nat.mul_assoc, ← twoPow_add, hsum]

end Magnitude

namespace Binary64

theorem roundDiv_mul {den : Nat} (h : 0 < den) (n : Nat) : roundDiv (den * n) den = n := by
  unfold roundDiv
  rw [Nat.mul_mod_right, Nat.mul_div_cancel_left n h, if_pos (by rwa [Nat.mul_zero])]

theorem pack_magnitude (negative : Bool) (size : Magnitude) :
    pack negative size.significand size.scale = finite negative size := by
  unfold pack
  rw [if_neg (Nat.ne_of_lt size.significand_lt)]
  exact dif_pos ⟨size.significand_lt, size.scale_le, size.normal⟩

theorem ofRatio_of_units (negative : Bool) {num den : Nat} (hden : 0 < den) {size : Magnitude}
    (h : num * unitsPerOne = den * size.units) :
    ofRatio negative num den = finite negative size := by
  have hscaled : den * size.units = den * twoPow size.scale * size.significand := by
    rw [Magnitude.units, Nat.mul_comm size.significand, Nat.mul_assoc]
  unfold ofRatio
  dsimp only
  rw [h, Nat.mul_div_cancel_left _ hden, size.log2_units, hscaled,
    roundDiv_mul (Nat.mul_pos hden (twoPow_pos _)), pack_magnitude]

theorem exists_units_of_le {n : Nat} (h : n ≤ twoPow 53) :
    ∃ size : Magnitude, size.units = n * unitsPerOne := by
  rcases Nat.lt_or_eq_of_le h with hlt | rfl
  · exact Magnitude.exists_units hlt (by decide) (by decide)
  · -- The power itself has one place too many, but only its first place counts.
    have hone : 1 < twoPow 53 := by decide
    have hlast : 53 + 1074 ≤ greatestScale := by decide
    obtain ⟨size, hsize⟩ := Magnitude.exists_units hone (by decide) hlast
    exact ⟨size, by rw [hsize, Nat.one_mul, twoPow_add, unitsPerOne]⟩

theorem rank_ofInt {n : Int} (h : n.natAbs ≤ twoPow 53) :
    (ofInt n).rank = some (n * unitsPerOne) := by
  obtain ⟨size, hsize⟩ := exists_units_of_le h
  have hratio : n.natAbs * unitsPerOne = 1 * size.units := by rw [hsize, Nat.one_mul]
  rw [ofInt, ofRatio_of_units _ Nat.one_pos hratio, rank, signed, hsize]
  by_cases hn : n < 0
  · rw [if_pos (decide_eq_true hn), Int.natCast_mul, Int.ofNat_natAbs_of_nonpos (Int.le_of_lt hn),
      Int.neg_mul, Int.neg_neg]
  · rw [if_neg (by simpa using hn), Int.natCast_mul, Int.natAbs_of_nonneg (Int.not_lt.1 hn)]

theorem below_iff {x y : Binary64} :
    x.below y = true ↔ ∃ m n, x.rank = some m ∧ y.rank = some n ∧ m < n := by
  unfold below
  cases x.rank <;> cases y.rank <;> simp

theorem below_eq_false {x y : Binary64} {m n : Int} (hx : x.rank = some m) (hy : y.rank = some n) :
    x.below y = false ↔ n ≤ m := by
  rw [below, hx, hy]
  simp

def unsignedZero : Binary64 → Binary64
  | finite negative size => finite (negative && decide (size.units ≠ 0)) size
  | other => other

theorem signed_true (n : Nat) : signed true n = -(n : Int) := rfl

theorem signed_false (n : Nat) : signed false n = n := rfl

theorem signed_inj {m n : Bool} {a b : Nat} :
    signed m a = signed n b ↔ a = b ∧ (a ≠ 0 → m = n) := by
  by_cases hsign : m = n
  · subst hsign
    have hlike : signed m a = signed m b ↔ a = b := by
      cases m <;> simp only [signed_true, signed_false] <;> omega
    rw [hlike]
    exact ⟨fun h => ⟨h, fun _ => rfl⟩, And.left⟩
  · have hunlike : signed m a = signed n b ↔ a = b ∧ a = 0 := by
      cases m <;> cases n <;>
        simp only [signed_true, signed_false, not_true_eq_false] at hsign ⊢ <;> omega
    rw [hunlike]
    exact ⟨fun h => ⟨h.1, fun hne => absurd h.2 hne⟩,
      fun h => ⟨h.1, Decidable.byContradiction fun hne => hsign (h.2 hne)⟩⟩

theorem same_iff {x y : Binary64} :
    x.same y = true ↔ x ≠ nan ∧ x.unsignedZero = y.unsignedZero := by
  have hpositive : unitsOfInfinity ≠ 0 :=
    Nat.ne_of_gt (Nat.lt_of_le_of_lt (Nat.zero_le _) (units_lt_unitsOfInfinity .zero))
  have hbelow (size : Magnitude) : size.units ≠ unitsOfInfinity :=
    Nat.ne_of_lt (units_lt_unitsOfInfinity size)
  cases x with
  | nan => simp [same, rank]
  | infinite m =>
    cases y with
    | nan => simp [same, rank, unsignedZero]
    | infinite n => simp [same, rank, unsignedZero, signed_inj, hpositive]
    | finite n size => simp [same, rank, unsignedZero, signed_inj, (hbelow size).symm]
  | finite m size =>
    cases y with
    | nan => simp [same, rank, unsignedZero]
    | infinite n => simp [same, rank, unsignedZero, signed_inj, hbelow]
    | finite n other =>
      have hsize : size.units = other.units ↔ size = other :=
        ⟨Magnitude.units_inj, congrArg Magnitude.units⟩
      have hsign (equal : size = other) :
          (m && decide (size.units ≠ 0)) = (n && decide (other.units ≠ 0)) ↔
            (size.units ≠ 0 → m = n) := by
        subst equal
        by_cases hzero : size.units = 0 <;> simp [hzero]
      simp only [same, rank, unsignedZero, beq_iff_eq, signed_inj, hsize]
      constructor
      · rintro ⟨rfl, hm⟩
        simpa using (hsign rfl).2 hm
      · rintro ⟨-, hequal⟩
        obtain ⟨hm, rfl⟩ := finite.inj hequal
        exact ⟨rfl, (hsign rfl).1 hm⟩

theorem le_roundDiv (num den : Nat) : num / den ≤ roundDiv num den := by
  unfold roundDiv
  dsimp only
  split
  · exact Nat.le_refl _
  · split <;> omega

theorem roundDiv_le (num den : Nat) : roundDiv num den ≤ num / den + 1 := by
  unfold roundDiv
  dsimp only
  split
  · exact Nat.le_succ _
  · split <;> omega

/-- A significand that rounding has carried out of its 53 places is packed at the next scale. -/
theorem exists_pack (negative : Bool) {significand scale : Nat} (hlast : scale < greatestScale)
    (hupper : significand ≤ twoPow 53) (hnormal : scale = 0 ∨ twoPow 52 ≤ significand) :
    ∃ size : Magnitude, pack negative significand scale = finite negative size ∧
      size.units = significand * twoPow scale ∧
      (significand % 2 = 0 → size.significand % 2 = 0) := by
  unfold pack
  by_cases hfull : significand = twoPow 53
  · have hlt : twoPow 52 < twoPow 53 := by decide
    have heven : twoPow 52 % 2 = 0 := by decide
    have hunits : twoPow 52 * twoPow (scale + 1) = significand * twoPow scale := by
      rw [hfull, twoPow_succ scale, twoPow_succ 52, Nat.mul_comm (twoPow scale), Nat.mul_assoc]
    rw [if_pos hfull]
    exact ⟨⟨twoPow 52, scale + 1, hlt, hlast, Or.inr (Nat.le_refl _)⟩,
      dif_pos ⟨hlt, hlast, Or.inr (Nat.le_refl _)⟩, hunits, fun _ => heven⟩
  · have hlt : significand < twoPow 53 := Nat.lt_of_le_of_ne hupper hfull
    rw [if_neg hfull]
    exact ⟨⟨significand, scale, hlt, Nat.le_of_lt hlast, hnormal⟩,
      dif_pos ⟨hlt, Nat.le_of_lt hlast, hnormal⟩, rfl, id⟩

theorem div_scale_lt (units : Nat) : units / twoPow (units.log2 - 52) < twoPow 53 := by
  have hplaces : units < twoPow (units.log2 + 1) := Nat.lt_log2_self
  rw [Nat.div_lt_iff_lt_mul (twoPow_pos _), ← twoPow_add]
  exact Nat.lt_of_lt_of_le hplaces (twoPow_le_twoPow (by omega))

theorem le_div_scale {units : Nat} (h : units.log2 - 52 ≠ 0) :
    twoPow 52 ≤ units / twoPow (units.log2 - 52) := by
  have hne : units ≠ 0 := by
    rintro rfl
    exact h rfl
  have hplaces : 52 + (units.log2 - 52) = units.log2 := by omega
  rw [Nat.le_div_iff_mul_le (twoPow_pos _), ← twoPow_add, hplaces]
  exact Nat.log2_self_le hne

theorem exists_ofRatio_one (negative : Bool) {num places scale : Nat} (h : num < twoPow places)
    (hplaces : places ≤ 1023) (hscale : (num * unitsPerOne).log2 - 52 = scale) :
    ∃ size : Magnitude, ofRatio negative num 1 = finite negative size ∧
      size.units = roundDiv (num * unitsPerOne) (twoPow scale) * twoPow scale ∧
      (roundDiv (num * unitsPerOne) (twoPow scale) % 2 = 0 → size.significand % 2 = 0) := by
  have hlast : scale < greatestScale := by
    by_cases hzero : num = 0
    · rw [← hscale, hzero, Nat.zero_mul]
      decide
    · have hlog : num.log2 < places := (Nat.log2_lt hzero).2 h
      have hunits : (num * unitsPerOne).log2 = num.log2 + 1074 := log2_mul_twoPow hzero 1074
      rw [greatestScale]
      omega
  have hupper : roundDiv (num * unitsPerOne) (twoPow scale) ≤ twoPow 53 := by
    rw [← hscale]
    exact Nat.le_trans (roundDiv_le _ _) (div_scale_lt _)
  have hnormal : scale = 0 ∨ twoPow 52 ≤ roundDiv (num * unitsPerOne) (twoPow scale) := by
    refine (Decidable.em (scale = 0)).imp id fun hne => ?_
    rw [← hscale] at hne ⊢
    exact Nat.le_trans (le_div_scale hne) (le_roundDiv _ _)
  unfold ofRatio
  dsimp only
  rw [Nat.div_one, Nat.one_mul, hscale]
  exact exists_pack negative hlast hupper hnormal

end Binary64

end TypedEnv
