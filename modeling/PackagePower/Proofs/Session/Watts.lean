import PackagePower.Proofs.Register.PowerUnit
import PackagePower.Session.Step

/-!
# Watts and microwatts that are let through

What is accepted as watts is above zero and at most what a session allows, and a count of
microwatts that is accepted is not zero. Watts that make a unit of power, even a small one, make
microwatts.
-/

namespace PackagePower

-- Powers of whole numbers are core's, whatever else is imported.
attribute [local instance (1100)] instPowNat

theorem ne_zero_of_counted {whole : Nat} {error : RangeError} {count : UInt64}
    (bounded : whole ≤ UInt64.size - 1)
    (counted : (if whole = 0 then .error error else .ok (.ofNat whole)) = Except.ok count) :
    count ≠ 0 := by
  by_cases zero : whole = 0
  · rw [if_pos zero] at counted
    cases counted
  · rw [if_neg zero] at counted
    cases counted
    intro same
    have nothing := congrArg UInt64.toNat same
    rw [UInt64.toNat_ofNat_of_lt' (by omega)] at nothing
    exact zero nothing

theorem ne_zero_of_microwatts {watts : Binary64} {count : UInt64}
    (counted : microwatts watts = .ok count) : count ≠ 0 := by
  unfold microwatts at counted
  cases positive : watts.positive? with
  | none =>
    rw [positive] at counted
    cases counted
  | some _ =>
    rw [positive] at counted
    dsimp only at counted
    cases times : watts.timesNat 1000000 with
    | nan | infinite =>
      rw [times] at counted
      exact ne_zero_of_counted (Nat.le_refl _) counted
    | finite _ steps =>
      rw [times] at counted
      exact ne_zero_of_counted (Nat.min_le_right _ _) counted

/-- Watts that make up a unit make up microwatts, as the smallest unit is of thirty of them. -/
theorem microwatts_of_limitUnits {unit : PowerUnit} (small : unit.power.toNat ≤ 15)
    {watts : Binary64} {units : LimitUnits} (accepted : unit.limitUnits watts = .ok units) :
    ∃ count, microwatts watts = .ok count := by
  obtain ⟨steps, found, counted⟩ := PowerUnit.of_limitUnits accepted
  obtain ⟨_, fits, rfl⟩ := Binary64.of_positive? found
  have counts : 1 ≤ unit.nearestCount steps := counted ▸ units.positive
  have half : 2 ^ Binary64.stepBits ≤ 2 * (steps * 2 ^ unit.power.toNat) :=
    Binary64.half_le_of_roundHalfUp counts
  have one : 2 ^ Binary64.stepBits ≤ steps * 1000000 / 1 := by
    have scaled : 2 ^ unit.power.toNat ≤ 32768 := Nat.pow_le_pow_right (by decide) small
    calc 2 ^ Binary64.stepBits
      _ ≤ 2 * (steps * 2 ^ unit.power.toNat) := half
      _ ≤ 2 * (steps * 32768) := Nat.mul_le_mul_left _ (Nat.mul_le_mul_left _ scaled)
      _ ≤ steps * 1000000 / 1 := by omega
  have whole : Binary64.roundHalfUp (2 ^ Binary64.stepBits) = 1 := by
    rw [← Nat.one_mul (2 ^ Binary64.stepBits), Binary64.roundHalfUp_whole]
  unfold microwatts
  rw [found]
  dsimp only
  cases times : (Binary64.finite false steps fits).timesNat 1000000 with
  | nan | infinite => exact ⟨_, if_neg (by decide : ¬ UInt64.size - 1 = 0)⟩
  | finite _ product =>
    change Binary64.nearest false (steps * 1000000) 1 = _ at times
    -- Rounding keeps the leading power of two, so there is at least one whole microwatt.
    have rounded := Binary64.roundHalfUp_mono (Binary64.pow_le_of_nearest one times)
    rw [whole] at rounded
    have counted : 0 < min (Binary64.roundHalfUp product) (UInt64.size - 1) :=
      Nat.lt_min.2 ⟨rounded, by decide⟩
    exact ⟨_, if_neg (Nat.ne_of_gt counted)⟩

namespace Session

/-- Above zero and at most 5000 watts. -/
def Permitted (watts : Binary64) : Prop :=
  ∃ steps fits, watts = .finite false steps fits ∧ 0 < steps ∧
    steps ≤ 5000 * 2 ^ Binary64.stepBits

theorem fits_mostWatts : Binary64.Fits (5000 * 2 ^ Binary64.stepBits) :=
  .of_mul_pow (by decide) (Binary64.mul_pow_bounded (by decide) (by decide))

theorem mostWatts_eq : mostWatts = .finite false (5000 * 2 ^ Binary64.stepBits) fits_mostWatts := by
  decide +kernel

theorem permitted_of_checked {watts : Binary64}
    (accepted : checkWatts mostWatts watts = .ok watts) : Permitted watts := by
  unfold checkWatts at accepted
  cases positive : watts.positive? with
  | none =>
    rw [positive] at accepted
    cases accepted
  | some steps =>
    obtain ⟨above, fits, rfl⟩ := Binary64.of_positive? positive
    refine ⟨steps, fits, rfl, above, ?_⟩
    rw [positive] at accepted
    by_cases exceeds : mostWatts.lt (.finite false steps fits) = true
    · simp only [exceeds, if_true] at accepted
      cases accepted
    · rw [mostWatts_eq, Binary64.lt_finite, decide_eq_true_iff] at exceeds
      exact Nat.le_of_not_lt exceeds

theorem steps_le_iff (steps : Nat) :
    (steps : ℚ) / 2 ^ Binary64.stepBits ≤ 5000 ↔ steps ≤ 5000 * 2 ^ Binary64.stepBits := by
  have scaled (scale : ℕ) : (steps : ℚ) ≤ 5000 * scale ↔ steps ≤ 5000 * scale := by norm_cast
  have one : (0 : ℚ) < 2 ^ Binary64.stepBits := by positivity
  have whole : (2 : ℚ) ^ Binary64.stepBits = ((2 ^ Binary64.stepBits : ℕ) : ℚ) := by push_cast; rfl
  rw [div_le_iff₀ one, whole]
  exact scaled _

theorem checkWatts_eq_ok_iff {watts : Binary64} :
    checkWatts mostWatts watts = .ok watts ↔
      ∃ x, watts.toRat? = some x ∧ 0 < x ∧ x ≤ 5000 := by
  constructor
  · intro accepted
    obtain ⟨steps, fits, rfl, above, most⟩ := permitted_of_checked accepted
    exact ⟨_, Binary64.toRat?_nonnegative fits, by positivity, (steps_le_iff steps).2 most⟩
  · rintro ⟨x, value, above, most⟩
    obtain ⟨steps, found, rfl⟩ := Binary64.of_toRat? value above
    obtain ⟨_, fits, rfl⟩ := Binary64.of_positive? found
    have within : ¬ mostWatts.lt (.finite false steps fits) = true := by
      rw [mostWatts_eq, Binary64.lt_finite, decide_eq_true_iff, Nat.not_lt]
      exact (steps_le_iff steps).1 most
    unfold checkWatts
    rw [found]
    exact if_neg within

end Session
end PackagePower
