import PackagePower.Proofs.Binary64.Exact

/-!
# How far rounding goes

Rounding moves a value by half a place at most, and never past a number that it does not exceed.
The whole number nearest to a rounded value is therefore within one of the exact value, as long as
places are no wider than ones.
-/

namespace PackagePower.Binary64

-- Powers of whole numbers are core's, whatever else is imported.
attribute [local instance (1100)] instPowNat

variable {a b d : Nat}

theorem roundEven_near (a : Nat) (positive : 0 < d) :
    2 * (roundEven a d * d) ≤ 2 * a + d ∧ 2 * a ≤ 2 * (roundEven a d * d) + d := by
  have split := Nat.div_add_mod a d
  have below := Nat.mod_lt a positive
  have next : (a / d + 1) * d = a / d * d + d := Nat.succ_mul _ _
  rw [Nat.mul_comm] at split
  unfold roundEven
  split
  · omega
  · split
    · omega
    · rw [next]
      omega

theorem roundEven_le_of_le {k : Nat} (positive : 0 < d) (le : a ≤ k * d) : roundEven a d ≤ k := by
  have near := (roundEven_near a positive).1
  have doubled : 2 * roundEven a d * d ≤ (2 * k + 1) * d := by
    rw [Nat.mul_assoc, Nat.add_mul, Nat.mul_assoc, Nat.one_mul]
    omega
  have := Nat.le_of_mul_le_mul_right doubled positive
  omega

theorem scale_mono (le : a ≤ b) : scale a ≤ scale b := by
  unfold scale
  apply Nat.sub_le_sub_right
  by_cases zero : a = 0
  · rw [zero]
    exact Nat.zero_le _
  · apply (Nat.le_log2 (by omega)).2
    exact Nat.le_trans (Nat.log2_self_le zero) le

/-- A number that the exact value does not exceed is not exceeded by the rounded one. -/
theorem nearest_le (positive : 0 < d) (fits : Fits b) (le : a ≤ b * d) (negative : Bool) :
    ∃ steps fits, nearest negative a d = .finite negative steps fits ∧ steps ≤ b := by
  have low : scale (a / d) ≤ scale b := by
    apply scale_mono
    apply Nat.div_le_of_le_mul
    rwa [Nat.mul_comm]
  obtain ⟨k, whole⟩ := Nat.dvd_trans (Nat.pow_dvd_pow 2 low) fits.leading
  have within : a ≤ k * (d * 2 ^ scale (a / d)) := by
    calc a
      _ ≤ 2 ^ scale (a / d) * k * d := whole ▸ le
      _ = k * (d * 2 ^ scale (a / d)) := by ac_rfl
  have most : roundEven a (d * 2 ^ scale (a / d)) * 2 ^ scale (a / d) ≤ b := by
    rw [whole, Nat.mul_comm]
    apply Nat.mul_le_mul_left
    exact roundEven_le_of_le (Nat.mul_pos positive (Nat.two_pow_pos _)) within
  unfold nearest
  dsimp only
  rw [dif_pos (Nat.lt_of_le_of_lt most fits.bounded)]
  exact ⟨_, _, rfl, most⟩

/-- A rounded value is within half a place of the exact one. -/
theorem nearest_near {steps : Nat} {fits : Fits steps} {negative sign : Bool} (positive : 0 < d)
    (found : nearest negative a d = .finite sign steps fits) :
    2 * (steps * d) ≤ 2 * a + d * 2 ^ scale (a / d) ∧
      2 * a ≤ 2 * (steps * d) + d * 2 ^ scale (a / d) := by
  have near := roundEven_near a (Nat.mul_pos positive (Nat.two_pow_pos (scale (a / d))))
  have placed : roundEven a (d * 2 ^ scale (a / d)) * (d * 2 ^ scale (a / d)) =
      roundEven a (d * 2 ^ scale (a / d)) * 2 ^ scale (a / d) * d := by ac_rfl
  unfold nearest at found
  dsimp only at found
  split at found
  · cases found
    rwa [placed] at near
  · cases found

/-- Below `2 ^ 52` ones a place is narrower than a one. -/
theorem pow_scale_lt (small : a < 2 ^ (fractionBits + stepBits)) : 2 ^ scale a < 2 ^ stepBits := by
  apply Nat.pow_lt_pow_right (by decide)
  by_cases zero : a = 0
  · rw [zero]
    decide
  · have := (Nat.log2_lt zero).2 small
    unfold scale stepBits at *
    omega

/-- The whole number nearest to a value is within a half of it. -/
theorem roundHalfUp_near (steps : Nat) :
    2 * (roundHalfUp steps * 2 ^ stepBits) ≤ 2 * steps + 2 ^ stepBits ∧
      2 * steps < 2 * (roundHalfUp steps * 2 ^ stepBits) + 2 ^ stepBits := by
  have positive := Nat.two_pow_pos stepBits
  unfold roundHalfUp
  rw [Nat.two_pow_succ]
  generalize 2 ^ stepBits = one at positive ⊢
  have split := Nat.div_add_mod (2 * steps + one) (one + one)
  have below := Nat.mod_lt (2 * steps + one) (by omega : one + one > 0)
  have doubled : 2 * ((2 * steps + one) / (one + one) * one) =
      (one + one) * ((2 * steps + one) / (one + one)) := by
    rw [← Nat.two_mul one, Nat.mul_assoc, Nat.mul_comm one]
  omega

/-- The whole number nearest to a rounded value is within one of the exact value. -/
theorem roundHalfUp_nearest {steps : Nat} {fits : Fits steps} {negative sign : Bool}
    (small : a < 2 ^ (fractionBits + stepBits))
    (found : nearest negative a 1 = .finite sign steps fits) :
    roundHalfUp steps * 2 ^ stepBits < a + 2 ^ stepBits ∧
      a < roundHalfUp steps * 2 ^ stepBits + 2 ^ stepBits := by
  have place := pow_scale_lt small
  have rounded := nearest_near Nat.one_pos found
  have whole := roundHalfUp_near steps
  rw [Nat.div_one, Nat.mul_one, Nat.one_mul] at rounded
  generalize 2 ^ stepBits = one at *
  omega

end PackagePower.Binary64
