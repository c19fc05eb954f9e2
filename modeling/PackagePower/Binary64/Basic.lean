/-!
# Binary64 numbers as whole numbers of steps

The least positive binary64 number is `2 ^ -1074`; call it a step. Every finite binary64
number is a signed whole number of steps, and a whole number of steps is one exactly when it
lies below `2 ^ topBits` and its bits under the top fifty-three are zero. So values compare,
scale and round in the natural numbers.

`nearest` is the only rounding: the exact result, given as a fraction of steps, goes to the
nearest representable number, a tie to the even one. This module does NOT supply addition or
the product of two numbers; scaling by whole numbers is all that limits need.
-/

namespace PackagePower

-- Powers of whole numbers are core's, whatever else is imported.
attribute [local instance (1100)] instPowNat

/-- Finite numbers have fewer than this many bits of steps. -/
def Binary64.topBits : Nat := 2098

/-- Bits behind the leading one that a number keeps. -/
def Binary64.fractionBits : Nat := 52

/-- Binary exponent of the lowest of the fifty-three leading bits of `steps`. -/
def Binary64.scale (steps : Nat) : Nat := steps.log2 - fractionBits

/-- Representable: below the overflow bound and nothing under the leading fifty-three bits. -/
structure Binary64.Fits (steps : Nat) : Prop where
  bounded : steps < 2 ^ Binary64.topBits
  leading : 2 ^ Binary64.scale steps ∣ steps

/-- A binary64 number. The two zeros are told apart; there is one value that is no number. -/
inductive Binary64 where
  | nan
  | infinite (negative : Bool)
  | finite (negative : Bool) (steps : Nat) (fits : Binary64.Fits steps)
  deriving DecidableEq

namespace Binary64

/-- How many steps make one, as an exponent of two. -/
def stepBits : Nat := 1074

def leadingBits : Nat := fractionBits + 1

def exponentBits : Nat := 11

/-! ## Representable counts -/

theorem scale_le {m p : Nat} (small : m < 2 ^ leadingBits) : scale (m * 2 ^ p) ≤ p := by
  unfold scale
  by_cases zero : m * 2 ^ p = 0
  · simp [zero]
  · have below : m * 2 ^ p < 2 ^ (leadingBits + p) := by
      rw [Nat.pow_add]
      exact Nat.mul_lt_mul_of_pos_right small (Nat.two_pow_pos p)
    have := (Nat.log2_lt zero).2 below
    unfold leadingBits at this
    omega

/-- At most fifty-three bits times a power of two. -/
theorem Fits.of_mul_pow {m p : Nat} (small : m ≤ 2 ^ leadingBits)
    (bounded : m * 2 ^ p < 2 ^ topBits) : Fits (m * 2 ^ p) := by
  refine ⟨bounded, ?_⟩
  by_cases full : m = 2 ^ leadingBits
  · subst full
    have : scale (2 ^ leadingBits * 2 ^ p) = p + 1 := by
      unfold scale leadingBits
      rw [← Nat.pow_add, Nat.log2_two_pow]
      omega
    rw [this, ← Nat.pow_add]
    exact Nat.pow_dvd_pow 2 (by unfold leadingBits fractionBits; omega)
  · exact Nat.dvd_trans (Nat.pow_dvd_pow 2 (scale_le (by omega))) (Nat.dvd_mul_left _ _)

theorem mul_pow_bounded {m p : Nat} (small : m < 2 ^ leadingBits)
    (low : leadingBits + p ≤ topBits) : m * 2 ^ p < 2 ^ topBits :=
  calc m * 2 ^ p
      _ < 2 ^ leadingBits * 2 ^ p := Nat.mul_lt_mul_of_pos_right small (Nat.two_pow_pos p)
      _ = 2 ^ (leadingBits + p) := by rw [Nat.pow_add]
      _ ≤ 2 ^ topBits := Nat.pow_le_pow_right (by decide) low

theorem Fits.zero : Fits 0 := ⟨Nat.two_pow_pos _, Nat.dvd_zero _⟩

/-! ## Rounding -/

/-- The whole number nearest to `a / d`, the even one of two equally near. -/
def roundEven (a d : Nat) : Nat :=
  if 2 * (a % d) < d then a / d
  else if 2 * (a % d) = d ∧ a / d % 2 = 0 then a / d
  else a / d + 1

theorem roundEven_le (a d : Nat) : roundEven a d ≤ a / d + 1 := by
  unfold roundEven
  split
  · omega
  · split <;> omega

theorem roundEven_leading (a d : Nat) :
    roundEven a (d * 2 ^ scale (a / d)) ≤ 2 ^ leadingBits := by
  refine Nat.le_trans (roundEven_le _ _) ?_
  rw [← Nat.div_div_eq_div_mul]
  have : a / d < 2 ^ (leadingBits + scale (a / d)) := by
    by_cases zero : a / d = 0
    · rw [zero]; exact Nat.two_pow_pos _
    · refine (Nat.log2_lt zero).1 ?_
      unfold scale leadingBits; omega
  rw [Nat.pow_add] at this
  exact Nat.div_lt_of_lt_mul (by rwa [Nat.mul_comm] at this)

/-- The number nearest to `a / d` steps; infinite from half a place above the largest on. -/
def nearest (negative : Bool) (a d : Nat) : Binary64 :=
  let p := scale (a / d)
  let m := roundEven a (d * 2 ^ p)
  if bounded : m * 2 ^ p < 2 ^ topBits then
    .finite negative (m * 2 ^ p) (.of_mul_pow (roundEven_leading a d) bounded)
  else .infinite negative

def ofRatio (negative : Bool) (num den : Nat) : Binary64 :=
  nearest negative (num * 2 ^ stepBits) den

def ofNat (n : Nat) : Binary64 := ofRatio false n 1

def timesNat (x : Binary64) (k : Nat) : Binary64 :=
  match x with
  | .nan => .nan
  | .infinite negative => if k = 0 then .nan else .infinite negative
  | .finite negative steps _ => nearest negative (steps * k) 1

/-- The number nearest to a `k`-th of `x`, for a positive `k`. -/
def overNat (x : Binary64) (k : Nat) : Binary64 :=
  match x with
  | .finite negative steps _ => nearest negative steps k
  | x => x

/-! ## Views -/

def isFinite : Binary64 → Bool
  | .finite .. => true
  | _ => false

/-- The steps of a number that is finite and above zero. -/
def positive? : Binary64 → Option Nat
  | .finite false steps _ => if steps = 0 then none else some steps
  | _ => none

theorem of_positive? {x : Binary64} {steps : Nat} (found : x.positive? = some steps) :
    0 < steps ∧ ∃ fits, x = .finite false steps fits := by
  unfold positive? at found
  split at found
  · rename_i fits
    split at found
    · cases found
    · rename_i nonzero
      cases found
      exact ⟨Nat.pos_of_ne_zero nonzero, fits, rfl⟩
  · cases found

/-- Steps of a finite number, with its sign. -/
def signedSteps (negative : Bool) (steps : Nat) : Int := if negative then -steps else steps

/-- Strictly below; never with `nan` on a side, and the zeros are equal. -/
def lt : Binary64 → Binary64 → Bool
  | .nan, _ => false
  | _, .nan => false
  | .infinite true, y => y ≠ .infinite true
  | _, .infinite true => false
  | .infinite false, _ => false
  | _, .infinite false => true
  | .finite s m _, .finite t n _ => signedSteps s m < signedSteps t n

theorem lt_finite {m n : Nat} (fits : Fits m) (fits' : Fits n) :
    (finite false m fits).lt (finite false n fits') = decide (m < n) :=
  decide_eq_decide.2 Int.ofNat_lt

/-- The whole number of ones nearest to `steps`, upwards from a half. -/
def roundHalfUp (steps : Nat) : Nat := (2 * steps + 2 ^ stepBits) / 2 ^ (stepBits + 1)

/-! ## Interchange format -/

/-- A fraction, with or without the leading one, has no more than the bits kept. -/
theorem leading_of_fraction {fraction : Nat} (small : fraction < 2 ^ fractionBits) :
    fraction < 2 ^ leadingBits ∧ 2 ^ fractionBits + fraction < 2 ^ leadingBits := by
  unfold leadingBits
  rw [Nat.pow_succ]
  omega

def ofBits (bits : BitVec 64) : Binary64 :=
  let negative := bits.msb
  let field := bits.toNat / 2 ^ fractionBits % 2 ^ exponentBits
  let fraction := bits.toNat % 2 ^ fractionBits
  have small : fraction < 2 ^ fractionBits := Nat.mod_lt _ (Nat.two_pow_pos _)
  if special : field + 1 = 2 ^ exponentBits then
    if fraction = 0 then .infinite negative else .nan
  else if field = 0 then
    .finite negative (fraction * 2 ^ (0 : Nat))
      (.of_mul_pow (Nat.le_of_lt (leading_of_fraction small).1)
        (mul_pow_bounded (leading_of_fraction small).1 (by decide)))
  else
    have range : field < 2 ^ exponentBits := Nat.mod_lt _ (Nat.two_pow_pos _)
    .finite negative ((2 ^ fractionBits + fraction) * 2 ^ (field - 1))
      (.of_mul_pow (Nat.le_of_lt (leading_of_fraction small).2)
        (mul_pow_bounded (leading_of_fraction small).2 (by
          unfold exponentBits at range special; unfold leadingBits fractionBits topBits; omega)))

/-- The 64 bits that encode a number; the quiet pattern for `nan`. -/
def toBits : Binary64 → BitVec 64
  | .nan => 0x7ff8000000000000#64
  | .infinite negative => signBit negative ||| 0x7ff0000000000000#64
  | .finite negative steps _ =>
    if steps < 2 ^ fractionBits then signBit negative ||| BitVec.ofNat 64 steps
    else
      let p := scale steps
      signBit negative ||| BitVec.ofNat 64
        ((p + 1) * 2 ^ fractionBits + (steps / 2 ^ p - 2 ^ fractionBits))
where
  signBit (negative : Bool) : BitVec 64 := if negative then 1#64 <<< 63 else 0#64

end Binary64
end PackagePower
