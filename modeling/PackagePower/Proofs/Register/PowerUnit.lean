import Mathlib.Tactic.Linarith
import PackagePower.Proofs.Binary64.Exact
import PackagePower.Register.PowerUnit

/-!
# Watts counted in units

The quotient of watts by a unit is exact, as the unit is a power of two, and so is the whole
number nearest to it. The range is checked on that number, before any conversion could wrap or
saturate. A quotient beyond the binary64 range is above every field.
-/

namespace PackagePower.PowerUnit

-- Powers of whole numbers are core's, whatever else is imported.
attribute [local instance (1100)] instPowNat

open Binary64

variable (unit : PowerUnit)

theorem power_le_stepBits : unit.power.toNat ≤ stepBits := by
  have := unit.power.isLt
  unfold stepBits
  omega

theorem watts_eq {count : Nat} (small : count < 2 ^ leadingBits) :
    unit.watts count = .finite false (count * 2 ^ (stepBits - unit.power.toNat))
      (.count small (Nat.sub_le _ _)) :=
  ofRatio_pow small unit.power_le_stepBits false

/-- Units nearest to so many steps, upwards from a half. -/
def nearestCount (steps : Nat) : Nat := roundHalfUp (steps * 2 ^ unit.power.toNat)

variable {unit}

theorem nearestCount_mono {steps more : Nat} (le : steps ≤ more) :
    unit.nearestCount steps ≤ unit.nearestCount more :=
  roundHalfUp_mono (Nat.mul_le_mul_right _ le)

theorem le_nearestCount_of_overflow {steps : Nat}
    (beyond : ¬ steps * 2 ^ unit.power.toNat < 2 ^ topBits) :
    reportedMax ≤ unit.nearestCount steps := by
  have room : 64 + stepBits ≤ topBits := by decide
  have many : 2 ^ 64 * 2 ^ stepBits ≤ steps * 2 ^ unit.power.toNat := by
    rw [← Nat.pow_add]
    exact Nat.le_trans (Nat.pow_le_pow_right (by decide) room) (Nat.le_of_not_lt beyond)
  calc reportedMax
    _ ≤ 2 ^ 64 := by decide
    _ = roundHalfUp (2 ^ 64 * 2 ^ stepBits) := (roundHalfUp_whole _).symm
    _ ≤ _ := roundHalfUp_mono many

variable (unit) in
/-- The whole number nearest to the quotient stands in the range where the count does. -/
theorem round_quotient {steps : Nat} (fits : Fits steps) :
    let units := ((finite false steps fits).quotient unit.wattsPerUnit).round
    units.lt (.ofNat 1) = decide (unit.nearestCount steps < 1) ∧
      (Binary64.ofNat LimitUnits.largest).lt units =
        decide (LimitUnits.largest < unit.nearestCount steps) ∧
      ∀ most ≤ reportedMax, units.clampTo most = min (unit.nearestCount steps) most := by
  have one : 1 < 2 ^ leadingBits := by decide
  have largest : LimitUnits.largest < 2 ^ leadingBits := by decide
  dsimp only
  unfold wattsPerUnit step
  rw [quotient_pow fits unit.power_le_stepBits, ofNat_eq one, ofNat_eq largest]
  split
  · refine ⟨lt_whole _ _, lt_whole _ _, fun most _ => clampTo_whole _ most⟩
  · rename_i beyond
    have many := le_nearestCount_of_overflow beyond
    have : LimitUnits.largest < reportedMax := by decide
    refine ⟨?_, ?_, fun most low => ?_⟩
    · exact (decide_eq_false (by omega)).symm
    · exact (decide_eq_true (by omega)).symm
    · exact (Nat.min_eq_right (Nat.le_trans low many)).symm

/-- What watts above zero are converted to. -/
theorem limitUnits_of_positive {watts : Binary64} {steps : Nat}
    (found : watts.positive? = some steps) :
    unit.limitUnits watts =
      if inside : 1 ≤ unit.nearestCount steps ∧ unit.nearestCount steps ≤ LimitUnits.largest then
        .ok ⟨unit.nearestCount steps, inside.1, inside.2⟩
      else .error (.watts watts (min (unit.nearestCount steps) reportedMax) unit.wattsPerUnit) := by
  obtain ⟨_, fits, rfl⟩ := of_positive? found
  obtain ⟨below, above, clamped⟩ := round_quotient unit fits
  have narrow : LimitUnits.largest ≤ UInt16.size - 1 := by decide
  have reported := clamped reportedMax (Nat.le_refl _)
  have converted := clamped (UInt16.size - 1) (by decide)
  unfold limitUnits
  rw [found]
  dsimp only
  rw [below, above, reported, converted]
  by_cases inside : 1 ≤ unit.nearestCount steps ∧ unit.nearestCount steps ≤ LimitUnits.largest
  · obtain ⟨positive, bounded⟩ := id inside
    rw [Nat.min_eq_left (Nat.le_trans bounded narrow), dif_pos inside, if_neg]
    · exact dif_pos inside
    · rw [Bool.or_eq_true, decide_eq_true_iff, decide_eq_true_iff]
      omega
  · rw [dif_neg inside, if_pos]
    rw [Bool.or_eq_true, decide_eq_true_iff, decide_eq_true_iff]
    omega

theorem limitUnits_eq_notPositive_iff {watts : Binary64} :
    unit.limitUnits watts = .error (.notPositive watts) ↔ watts.positive? = none := by
  cases found : watts.positive? with
  | none =>
    unfold limitUnits
    rw [found]
    exact iff_of_true rfl rfl
  | some steps =>
    rw [limitUnits_of_positive found]
    refine iff_of_false (fun refused => ?_) (Option.some_ne_none steps)
    split at refused
    · cases refused
    · cases refused

/-- Accepted watts are above zero, and their count is the nearest. -/
theorem of_limitUnits {watts : Binary64} {units : LimitUnits}
    (accepted : unit.limitUnits watts = .ok units) :
    ∃ steps, watts.positive? = some steps ∧ units.count = unit.nearestCount steps := by
  cases found : watts.positive? with
  | none =>
    rw [limitUnits_eq_notPositive_iff.2 found] at accepted
    cases accepted
  | some steps =>
    rw [limitUnits_of_positive found] at accepted
    split at accepted
    · cases accepted
      exact ⟨steps, rfl, rfl⟩
    · cases accepted

theorem nearestCount_of_count {count : Nat} :
    unit.nearestCount (count * 2 ^ (stepBits - unit.power.toNat)) = count := by
  unfold nearestCount
  rw [Nat.mul_assoc, ← Nat.pow_add, Nat.sub_add_cancel unit.power_le_stepBits, roundHalfUp_whole]

theorem count_lt (units : LimitUnits) : units.count < 2 ^ leadingBits :=
  Nat.lt_of_le_of_lt units.bounded (by decide)

theorem limitUnits_watts (units : LimitUnits) :
    unit.limitUnits (unit.watts units.count) = .ok units := by
  have positive : units.count * 2 ^ (stepBits - unit.power.toNat) ≠ 0 :=
    Nat.mul_ne_zero (Nat.ne_of_gt units.positive) (Nat.two_pow_pos _).ne'
  have found : (unit.watts units.count).positive? =
      some (units.count * 2 ^ (stepBits - unit.power.toNat)) := by
    rw [unit.watts_eq (count_lt units)]
    exact if_neg positive
  rw [limitUnits_of_positive found]
  simp only [nearestCount_of_count]
  exact dif_pos ⟨units.positive, units.bounded⟩

/-! ## As rationals -/

variable (unit) in
/-- The whole number of units nearest to `x` watts, upwards from a half. -/
def exactCount (x : ℚ) : ℕ := ⌊x * 2 ^ unit.power.toNat + 1 / 2⌋₊

theorem nearestCount_eq_exactCount (steps : Nat) :
    unit.nearestCount steps = unit.exactCount (steps / 2 ^ stepBits) := by
  unfold nearestCount exactCount
  rw [roundHalfUp_eq_floor]
  push_cast
  rw [div_mul_eq_mul_div]

theorem toRat?_watts (units : LimitUnits) :
    (unit.watts units.count).toRat? = some ((units.count : ℚ) / 2 ^ unit.power.toNat) := by
  have scaled : (2 : ℚ) ^ stepBits =
      2 ^ (stepBits - unit.power.toNat) * 2 ^ unit.power.toNat := by
    rw [← pow_add, Nat.sub_add_cancel unit.power_le_stepBits]
  rw [unit.watts_eq (count_lt units), toRat?_nonnegative, scaled]
  push_cast
  rw [mul_comm (units.count : ℚ), mul_div_mul_left _ _ (by positivity)]

/-- A count is within half a unit of what it was rounded from. -/
theorem exactCount_near {x : ℚ} (above : 0 < x) :
    |(unit.exactCount x : ℚ) / 2 ^ unit.power.toNat - x| ≤ 1 / 2 ^ (unit.power.toNat + 1) := by
  have scale : (0 : ℚ) < 2 ^ unit.power.toNat := by positivity
  have nonnegative : 0 ≤ x * 2 ^ unit.power.toNat + 1 / 2 := by positivity
  have low := Nat.floor_le nonnegative
  have high := Nat.lt_floor_add_one (x * 2 ^ unit.power.toNat + 1 / 2)
  have half : |(unit.exactCount x : ℚ) - x * 2 ^ unit.power.toNat| ≤ 1 / 2 := by
    unfold exactCount
    rw [abs_le]
    constructor <;> linarith
  calc |(unit.exactCount x : ℚ) / 2 ^ unit.power.toNat - x|
    _ = |(unit.exactCount x : ℚ) - x * 2 ^ unit.power.toNat| / 2 ^ unit.power.toNat := by
      rw [← abs_of_pos scale, ← abs_div, abs_of_pos scale, sub_div, mul_div_cancel_right₀ _ scale.ne']
    _ ≤ 1 / 2 / 2 ^ unit.power.toNat := div_le_div_of_nonneg_right half scale.le
    _ = 1 / 2 ^ (unit.power.toNat + 1) := by rw [div_div, pow_succ, mul_comm]

/-- Watts are counted exactly. What is no positive number is refused as that; anything else is
the nearest count, upwards from a half, which is accepted where a field holds it and reported
where none does. An accepted count is within half a unit, in the order of the watts, and every
count is that of its own watts. -/
theorem limitUnits_exact (unit : PowerUnit) :
    (∀ watts, unit.limitUnits watts = .error (.notPositive watts) ↔
      watts = .nan ∨ (∃ negative, watts = .infinite negative) ∨
        ∃ x, watts.toRat? = some x ∧ x ≤ 0) ∧
    (∀ watts x, watts.toRat? = some x → 0 < x →
      let count := unit.exactCount x
      unit.limitUnits watts =
        if inside : 1 ≤ count ∧ count ≤ 0x7FFF then .ok ⟨count, inside.1, inside.2⟩
        else .error (.watts watts (min count (2 ^ 64 - 1)) unit.wattsPerUnit)) ∧
    (∀ watts units, unit.limitUnits watts = .ok units →
      ∃ x y, watts.toRat? = some x ∧ (unit.watts units.count).toRat? = some y ∧
        y = units.count / 2 ^ unit.power.toNat ∧
        |y - x| ≤ 1 / 2 ^ (unit.power.toNat + 1)) ∧
    (∀ lower upper x y fewer more, lower.toRat? = some x → upper.toRat? = some y → x ≤ y →
      unit.limitUnits lower = .ok fewer → unit.limitUnits upper = .ok more →
        fewer.count ≤ more.count) ∧
    ∀ units : LimitUnits, unit.limitUnits (unit.watts units.count) = .ok units := by
  refine ⟨?_, ?_, ?_, ?_, limitUnits_watts⟩
  · intro watts
    exact limitUnits_eq_notPositive_iff.trans positive?_eq_none_iff
  · intro watts x value above count
    obtain ⟨steps, found, rfl⟩ := of_toRat? value above
    have nearest : unit.nearestCount steps = count := nearestCount_eq_exactCount steps
    rw [limitUnits_of_positive found]
    simp only [nearest]
    rfl
  · intro watts units accepted
    obtain ⟨steps, found, same⟩ := of_limitUnits accepted
    obtain ⟨above, value⟩ := toRat?_of_positive? found
    have positive : (0 : ℚ) < steps / 2 ^ stepBits := by positivity
    refine ⟨_, _, value, toRat?_watts units, rfl, ?_⟩
    rw [same, nearestCount_eq_exactCount]
    exact exactCount_near positive
  · intro lower upper x y fewer more value value' le accepted accepted'
    obtain ⟨steps, found, same⟩ := of_limitUnits accepted
    obtain ⟨steps', found', same'⟩ := of_limitUnits accepted'
    rw [(toRat?_of_positive? found).2] at value
    rw [(toRat?_of_positive? found').2] at value'
    cases value
    cases value'
    have one : (0 : ℚ) < 2 ^ stepBits := by positivity
    have order : steps ≤ steps' := by exact_mod_cast (div_le_div_iff_of_pos_right one).1 le
    rw [same, same']
    exact nearestCount_mono order

end PackagePower.PowerUnit
