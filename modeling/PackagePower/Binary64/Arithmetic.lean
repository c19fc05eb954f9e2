import PackagePower.Binary64.Basic

/-!
# Quotients and whole numbers

A quotient is rounded once. The whole number nearest to a number needs no rounding of its own, as
a number above `2 ^ 52` has no fraction. A conversion drops the fraction and stops at the ends of
its range.
-/

namespace PackagePower.Binary64

-- Powers of whole numbers are core's, whatever else is imported.
attribute [local instance (1100)] instPowNat

/-- The number nearest to `x / y`. -/
def quotient (x y : Binary64) : Binary64 :=
  match x, y with
  | .nan, _ | _, .nan => .nan
  | .infinite _, .infinite _ => .nan
  | .infinite s, .finite t _ _ => .infinite (s != t)
  | .finite s _ _, .infinite t => .finite (s != t) 0 .zero
  | .finite s m _, .finite t n _ =>
    if n = 0 then if m = 0 then .nan else .infinite (s != t)
    else nearest (s != t) (m * 2 ^ stepBits) n

theorem roundHalfUp_whole (n : Nat) : roundHalfUp (n * 2 ^ stepBits) = n := by
  have h := Nat.two_pow_pos stepBits
  unfold roundHalfUp
  rw [Nat.pow_succ, Nat.mul_comm (2 ^ stepBits) 2, ← Nat.div_div_eq_div_mul]
  generalize 2 ^ stepBits = one at h ⊢
  have half : (2 * (n * one) + one) / 2 / one = (2 * n + 1) * one / one / 2 := by
    rw [Nat.div_div_eq_div_mul, Nat.div_div_eq_div_mul, Nat.mul_comm one 2, Nat.add_mul,
      Nat.mul_assoc, Nat.one_mul]
  rw [half, Nat.mul_div_cancel _ h]
  omega

/-- A number is rounded to a whole one below `2 ^ 53`, or is whole. -/
theorem Fits.roundHalfUp {steps : Nat} (fits : Fits steps) :
    Fits (roundHalfUp steps * 2 ^ stepBits) := by
  by_cases small : steps < 2 ^ (fractionBits + stepBits)
  · have few : Binary64.roundHalfUp steps ≤ 2 ^ fractionBits := by
      unfold Binary64.roundHalfUp
      apply Nat.le_of_lt_succ
      apply Nat.div_lt_of_lt_mul
      rw [Nat.pow_add] at small
      have := Nat.two_pow_pos stepBits
      rw [Nat.pow_succ]
      generalize 2 ^ stepBits = one at *
      generalize 2 ^ fractionBits = most at *
      rw [Nat.mul_succ, Nat.mul_comm one 2, Nat.mul_assoc, Nat.mul_comm one most]
      omega
    have below : 2 ^ fractionBits < 2 ^ leadingBits := by decide
    apply Fits.of_mul_pow (Nat.le_of_lt (Nat.lt_of_le_of_lt few below))
    exact mul_pow_bounded (Nat.lt_of_le_of_lt few below) (by decide)
  · have large : fractionBits + stepBits ≤ steps.log2 := by
      apply (Nat.le_log2 _).2 (Nat.le_of_not_lt small)
      have := Nat.two_pow_pos (fractionBits + stepBits)
      omega
    have low : stepBits ≤ scale steps := by
      unfold scale
      omega
    obtain ⟨n, whole⟩ := Nat.dvd_trans (Nat.pow_dvd_pow 2 low) fits.leading
    rw [Nat.mul_comm] at whole
    rw [whole, roundHalfUp_whole, ← whole]
    exact fits

/-- The whole number nearest to `x`, away from zero from a half. -/
def round : Binary64 → Binary64
  | .finite negative steps fits => .finite negative (roundHalfUp steps * 2 ^ stepBits) fits.roundHalfUp
  | x => x

/-- `x` without its fraction, or the end of the range up to `most` that it is beyond. -/
def clampTo (most : Nat) : Binary64 → Nat
  | .nan => 0
  | .infinite negative => if negative then 0 else most
  | .finite negative steps _ => if negative then 0 else min (steps / 2 ^ stepBits) most

end PackagePower.Binary64
