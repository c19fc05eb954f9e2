import PackagePower.Text.Digits

/-!
# Reading a bounded whole number

A numeral is an optional `+` and one or more digits. Characters are examined from left to
right, so of two things wrong with a text the one further left is reported; at one character
a bad digit outranks the number having become too large.
-/

namespace PackagePower.Text

/-- Why a text is no numeral below its bound. -/
inductive NumeralFault where
  | empty
  | badDigit
  | tooLarge
  deriving DecidableEq, Repr

def NumeralFault.message : NumeralFault → String
  | .empty => "cannot parse integer from empty string"
  | .badDigit => "invalid digit found in string"
  | .tooLarge => "number too large to fit in target type"

/-- The digits still to come, appended to the `value` read so far. -/
def readDigits (base bound value : Nat) : List Char → Except NumeralFault Nat
  | [] => .ok value
  | c :: rest =>
    match digit? base c with
    | none => .error .badDigit
    | some d =>
      if base * value + d < bound then readDigits base bound (base * value + d) rest
      else .error .tooLarge

/-- The number below `bound` that `chars` writes in `base`. -/
def readNumeral (base bound : Nat) (chars : List Char) : Except NumeralFault Nat :=
  match chars with
  | [] => .error .empty
  | ['+'] => .error .badDigit
  | '+' :: digits => readDigits base bound 0 digits
  | digits => readDigits base bound 0 digits

theorem readDigits_lt {base bound value : Nat} {chars : List Char} {n : Nat}
    (small : value < bound) (h : readDigits base bound value chars = .ok n) : n < bound := by
  fun_induction readDigits base bound value chars with
  | case1 value => cases h; exact small
  | case2 => simp at h
  | case3 value c rest d hd fits ih => exact ih fits h
  | case4 => simp at h

theorem readNumeral_lt {base bound : Nat} {chars : List Char} {n : Nat}
    (positive : 0 < bound) (h : readNumeral base bound chars = .ok n) : n < bound := by
  unfold readNumeral at h
  split at h <;> first | exact readDigits_lt positive h | simp at h

/-- The digits behind a `0x` or `0X`, if `chars` starts with one. -/
def stripHexMark? : List Char → Option (List Char)
  | '0' :: 'x' :: digits => some digits
  | '0' :: 'X' :: digits => some digits
  | _ => none

end PackagePower.Text
