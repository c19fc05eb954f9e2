import Mathlib.Algebra.Order.Floor.Semifield
import Mathlib.Data.Rat.Floor
import PackagePower.Binary64.Arithmetic

/-!
# Where rounding changes nothing

A quotient that is itself a number is that number: so are whole numbers below `2 ^ 53`, their
parts by a power of two, and any number times a power of two below the overflow bound. From the
bound on the quotient is infinite.

Every finite number denotes a rational, and the whole number nearest to it is the floor of one
half more.
-/

namespace PackagePower

-- Powers of whole numbers are core's, whatever else is imported.
attribute [local instance (1100)] instPowNat

namespace Binary64

/-! ## Exact quotients -/

theorem roundEven_mul (m : Nat) {d : Nat} (positive : 0 < d) : roundEven (m * d) d = m := by
  have even : 2 * (m * d % d) < d := by
    rw [Nat.mul_mod_left]
    exact positive
  unfold roundEven
  rw [if_pos even, Nat.mul_div_cancel m positive]

theorem nearest_of_eq {a d steps : Nat} (positive : 0 < d) (fits : Fits steps)
    (exact : a = steps * d) (negative : Bool) :
    nearest negative a d = .finite negative steps fits := by
  obtain ⟨m, split⟩ := fits.leading
  have whole : a / d = steps := by rw [exact, Nat.mul_div_cancel _ positive]
  have mantissa : roundEven a (d * 2 ^ scale (a / d)) = m := by
    have same : a = m * (d * 2 ^ scale steps) := by
      rw [exact]
      calc steps * d
        _ = 2 ^ scale steps * m * d := congrArg (· * d) split
        _ = m * (d * 2 ^ scale steps) := by ac_rfl
    rw [whole, same]
    exact roundEven_mul m (Nat.mul_pos positive (Nat.two_pow_pos _))
  have back : m * 2 ^ scale (a / d) = steps := by
    rw [whole, Nat.mul_comm]
    exact split.symm
  unfold nearest
  simp only [mantissa, back, fits.bounded, dif_pos]

/-- The leading power of two of the exact quotient is never rounded away. -/
theorem pow_log2_le_rounded {a d : Nat} (positive : a / d ≠ 0) :
    2 ^ (a / d).log2 ≤ roundEven a (d * 2 ^ scale (a / d)) * 2 ^ scale (a / d) := by
  have low : scale (a / d) ≤ (a / d).log2 := Nat.sub_le _ _
  have down : a / d / 2 ^ scale (a / d) ≤ roundEven a (d * 2 ^ scale (a / d)) := by
    rw [Nat.div_div_eq_div_mul]
    unfold roundEven
    split
    · exact Nat.le_refl _
    · split <;> omega
  have lead : 2 ^ ((a / d).log2 - scale (a / d)) ≤ a / d / 2 ^ scale (a / d) := by
    apply (Nat.le_div_iff_mul_le (Nat.two_pow_pos _)).2
    rw [← Nat.pow_add, Nat.sub_add_cancel low]
    exact Nat.log2_self_le positive
  calc 2 ^ (a / d).log2
    _ = 2 ^ ((a / d).log2 - scale (a / d)) * 2 ^ scale (a / d) := by
      rw [← Nat.pow_add, Nat.sub_add_cancel low]
    _ ≤ _ := Nat.mul_le_mul_right _ (Nat.le_trans lead down)

theorem pow_le_rounded {a d e : Nat} (large : 2 ^ e ≤ a / d) :
    2 ^ e ≤ roundEven a (d * 2 ^ scale (a / d)) * 2 ^ scale (a / d) := by
  have positive : a / d ≠ 0 := by
    have := Nat.two_pow_pos e
    omega
  have low : 2 ^ e ≤ 2 ^ (a / d).log2 :=
    Nat.pow_le_pow_right (by decide) ((Nat.le_log2 positive).2 large)
  exact Nat.le_trans low (pow_log2_le_rounded positive)

theorem pow_le_of_nearest {a d e steps : Nat} {negative sign : Bool} {fits : Fits steps}
    (large : 2 ^ e ≤ a / d) (found : nearest negative a d = .finite sign steps fits) :
    2 ^ e ≤ steps := by
  unfold nearest at found
  dsimp only at found
  split at found
  · cases found
    exact pow_le_rounded large
  · cases found

theorem nearest_of_overflow {a d : Nat} (beyond : 2 ^ topBits ≤ a / d) (negative : Bool) :
    nearest negative a d = .infinite negative := by
  unfold nearest
  exact dif_neg (Nat.not_lt.2 (pow_le_rounded beyond))

/-! ## Powers of two -/

theorem Fits.mul_pow {steps e : Nat} (fits : Fits steps) (bounded : steps * 2 ^ e < 2 ^ topBits) :
    Fits (steps * 2 ^ e) := by
  refine ⟨bounded, ?_⟩
  by_cases zero : steps = 0
  · rw [zero, Nat.zero_mul]
    exact Nat.dvd_zero _
  · have below : steps * 2 ^ e < 2 ^ (steps.log2 + 1 + e) := by
      rw [Nat.pow_add]
      exact Nat.mul_lt_mul_of_pos_right Nat.lt_log2_self (Nat.two_pow_pos e)
    have nonzero : steps * 2 ^ e ≠ 0 := Nat.mul_ne_zero zero (Nat.two_pow_pos e).ne'
    have shifted : scale (steps * 2 ^ e) ≤ scale steps + e := by
      have := (Nat.log2_lt nonzero).2 below
      unfold scale
      omega
    apply Nat.dvd_trans (Nat.pow_dvd_pow 2 shifted)
    rw [Nat.pow_add]
    exact Nat.mul_dvd_mul_right fits.leading _

/-- A count below `2 ^ 53` of steps that are a power of two, up to ones. -/
theorem Fits.count {n p : Nat} (small : n < 2 ^ leadingBits) (low : p ≤ stepBits) :
    Fits (n * 2 ^ p) := by
  apply Fits.of_mul_pow (Nat.le_of_lt small)
  apply mul_pow_bounded small
  unfold leadingBits fractionBits topBits
  unfold stepBits at low
  omega

/-- A whole number by a power of two, down to one step. -/
theorem ofRatio_pow {n e : Nat} (small : n < 2 ^ leadingBits) (low : e ≤ stepBits)
    (negative : Bool) :
    ofRatio negative n (2 ^ e) =
      .finite negative (n * 2 ^ (stepBits - e)) (.count small (Nat.sub_le _ _)) := by
  apply nearest_of_eq (Nat.two_pow_pos e)
  rw [Nat.mul_assoc, ← Nat.pow_add, Nat.sub_add_cancel low]

theorem ofNat_eq {n : Nat} (small : n < 2 ^ leadingBits) :
    ofNat n = .finite false (n * 2 ^ stepBits) (.count small (Nat.le_refl _)) := by
  unfold ofNat ofRatio
  apply nearest_of_eq Nat.one_pos
  rw [Nat.mul_one]

theorem quotient_finite {m n : Nat} (fits : Fits m) (fits' : Fits n) (nonzero : n ≠ 0)
    (s t : Bool) :
    (finite s m fits).quotient (finite t n fits') = nearest (s != t) (m * 2 ^ stepBits) n :=
  if_neg nonzero

/-- The quotient by `2 ^ -e` has every bit, unless it is too large. -/
theorem quotient_pow {steps e : Nat} (fits : Fits steps) (low : e ≤ stepBits) :
    (finite false steps fits).quotient (ofRatio false 1 (2 ^ e)) =
      if bounded : steps * 2 ^ e < 2 ^ topBits then
        .finite false (steps * 2 ^ e) (fits.mul_pow bounded)
      else .infinite false := by
  have one : 1 < 2 ^ leadingBits := by decide
  have positive : 0 < 1 * 2 ^ (stepBits - e) := Nat.mul_pos Nat.one_pos (Nat.two_pow_pos _)
  have exact : steps * 2 ^ stepBits = steps * 2 ^ e * (1 * 2 ^ (stepBits - e)) := by
    rw [Nat.one_mul, Nat.mul_assoc, ← Nat.pow_add, Nat.add_sub_cancel' low]
  rw [ofRatio_pow one low, quotient_finite _ _ positive.ne']
  split
  · exact nearest_of_eq positive _ exact _
  · rename_i beyond
    apply nearest_of_overflow
    rw [exact, Nat.mul_div_cancel _ positive]
    exact Nat.le_of_not_lt beyond

/-! ## Whole numbers -/

theorem lt_whole {m n : Nat} (fits : Fits (m * 2 ^ stepBits)) (fits' : Fits (n * 2 ^ stepBits)) :
    (finite false (m * 2 ^ stepBits) fits).lt (finite false (n * 2 ^ stepBits) fits') =
      decide (m < n) := by
  rw [lt_finite]
  exact decide_eq_decide.2 (Nat.mul_lt_mul_right (Nat.two_pow_pos stepBits))

theorem clampTo_whole {n : Nat} (fits : Fits (n * 2 ^ stepBits)) (most : Nat) :
    (finite false (n * 2 ^ stepBits) fits).clampTo most = min n most := by
  unfold clampTo
  dsimp only
  rw [if_neg Bool.false_ne_true, Nat.mul_div_cancel _ (Nat.two_pow_pos stepBits)]

/-! ## Denotation -/

/-- The rational that a finite number denotes. -/
def toRat? : Binary64 → Option ℚ
  | .finite negative steps _ => some (signedSteps negative steps / 2 ^ stepBits)
  | _ => none

theorem toRat?_nonnegative {steps : Nat} (fits : Fits steps) :
    (finite false steps fits).toRat? = some ((steps : ℚ) / 2 ^ stepBits) := rfl

theorem of_toRat? {x : Binary64} {q : ℚ} (value : x.toRat? = some q) (above : 0 < q) :
    ∃ steps, x.positive? = some steps ∧ q = steps / 2 ^ stepBits := by
  have one : (0 : ℚ) < 2 ^ stepBits := by positivity
  cases x with
  | nan => cases value
  | infinite => cases value
  | finite negative steps fits =>
    cases negative with
    | true =>
      cases value
      have below : ((signedSteps true steps : ℤ) : ℚ) ≤ 0 := by
        exact_mod_cast Int.neg_nonpos_of_nonneg (Int.natCast_nonneg steps)
      have := div_nonpos_of_nonpos_of_nonneg below one.le
      exact absurd above this.not_gt
    | false =>
      cases value
      have nonzero : steps ≠ 0 := by
        rintro rfl
        exact absurd above (by simp [signedSteps])
      exact ⟨steps, if_neg nonzero, rfl⟩

theorem toRat?_of_positive? {x : Binary64} {steps : Nat} (found : x.positive? = some steps) :
    0 < steps ∧ x.toRat? = some ((steps : ℚ) / 2 ^ stepBits) := by
  obtain ⟨above, fits, rfl⟩ := of_positive? found
  exact ⟨above, rfl⟩

/-- What is no positive number. -/
theorem positive?_eq_none_iff {x : Binary64} :
    x.positive? = none ↔
      x = .nan ∨ (∃ negative, x = .infinite negative) ∨ ∃ q, x.toRat? = some q ∧ q ≤ 0 := by
  constructor
  · intro none
    cases x with
    | nan => exact .inl rfl
    | infinite negative => exact .inr (.inl ⟨negative, rfl⟩)
    | finite negative steps fits =>
      refine .inr (.inr ⟨_, rfl, le_of_not_gt fun above => ?_⟩)
      obtain ⟨_, found, _⟩ := of_toRat? (x := finite negative steps fits) rfl above
      rw [none] at found
      cases found
  · rintro (rfl | ⟨_, rfl⟩ | ⟨q, value, below⟩)
    · rfl
    · rfl
    · cases found : x.positive? with
      | none => rfl
      | some steps =>
        obtain ⟨above, same⟩ := toRat?_of_positive? found
        rw [value] at same
        cases same
        have : (0 : ℚ) < steps / 2 ^ stepBits := by positivity
        exact absurd below this.not_ge

theorem roundHalfUp_mono {steps more : Nat} (le : steps ≤ more) :
    roundHalfUp steps ≤ roundHalfUp more := by
  apply Nat.div_le_div_right
  omega

theorem half_le_of_roundHalfUp {steps : Nat} (counts : 1 ≤ roundHalfUp steps) :
    2 ^ stepBits ≤ 2 * steps := by
  have double := Nat.two_pow_succ stepBits
  have positive := Nat.two_pow_pos (stepBits + 1)
  unfold roundHalfUp at counts
  rw [Nat.one_le_div_iff positive, double] at counts
  omega

/-- The nearest whole number is the floor of one half more. -/
theorem roundHalfUp_eq_floor (steps : Nat) :
    roundHalfUp steps = ⌊(steps : ℚ) / 2 ^ stepBits + 1 / 2⌋₊ := by
  have one : (0 : ℚ) < 2 ^ stepBits := by positivity
  have ratio : (steps : ℚ) / 2 ^ stepBits + 1 / 2 =
      ((2 * steps + 2 ^ stepBits : ℕ) : ℚ) / ((2 ^ (stepBits + 1) : ℕ) : ℚ) := by
    push_cast
    rw [pow_succ]
    field_simp
  rw [ratio, Nat.floor_div_eq_div]
  rfl

end Binary64
end PackagePower
