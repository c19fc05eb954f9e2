import PackagePower.Register.LimitUnits
import PackagePower.Register.Word

/-!
# Hexadecimal digits

The digits of a number, each by its place. A word is shown with all of its sixteen digits, and a
count of units with as many capitals as it needs.
-/

namespace PackagePower

-- Powers of whole numbers are core's, whatever else is imported.
attribute [local instance (1100)] instPowNat

/-- The last `count` digits of a number in base sixteen, the highest first. -/
def hexDigits (count n : Nat) : List Char :=
  ((List.range count).map fun place => Nat.digitChar (n / 16 ^ place % 16)).reverse

theorem hexDigits_succ (count n : Nat) :
    hexDigits (count + 1) n = hexDigits count (n / 16) ++ [Nat.digitChar (n % 16)] := by
  unfold hexDigits
  rw [List.range_succ_eq_map, List.map_cons, List.reverse_cons, List.map_map]
  congr 2
  · apply List.map_congr_left
    intro place _
    rw [Function.comp_apply, Nat.pow_succ', Nat.div_div_eq_div_mul]
  · rw [Nat.pow_zero, Nat.div_one]

theorem Text.zeroPad_toDigits {count n : Nat} (positive : 0 < count) (fits : n < 16 ^ count) :
    zeroPad count (Nat.toDigits 16 n) = hexDigits count n := by
  induction count generalizing n with
  | zero => cases positive
  | succ count ih =>
    rw [hexDigits_succ, Nat.toDigits_eq_if (by decide)]
    have fewer : n / 16 < 16 ^ count := by
      rw [Nat.pow_succ'] at fits
      omega
    cases count with
    | zero =>
      have small : n < 16 := fits
      rw [if_pos small, Nat.mod_eq_of_lt small]
      rfl
    | succ count =>
      rw [← ih (Nat.zero_lt_succ _) fewer]
      unfold zeroPad
      split
      · rename_i small
        have none : n / 16 = 0 := Nat.div_eq_of_lt small
        rw [none, Nat.mod_eq_of_lt small, Nat.toDigits_zero]
        exact congrArg (· ++ [Nat.digitChar n]) List.replicate_succ'
      · rw [List.length_append, ← List.append_assoc]
        congr 3
        simp

theorem Text.lowerHex_eq {count n : Nat} (positive : 0 < count) (fits : n < 16 ^ count) :
    lowerHex count n = String.ofList (hexDigits count n) :=
  congrArg String.ofList (zeroPad_toDigits positive fits)

/-- A word, as the lines show it. -/
def Word.shown (value : Word) : String := "0x" ++ String.ofList (hexDigits 16 value.toNat)

theorem Word.text_eq_shown (value : Word) : value.text = value.shown := by
  unfold text shown
  rw [Text.lowerHex_eq (by decide) value.isLt]

/-- A count in capitals. -/
def capitals (n : Nat) : String := String.ofList ((Nat.toDigits 16 n).map Char.toUpper)

theorem Text.upperHex_eq_capitals (n : Nat) : upperHex 1 n = capitals n := by
  have some : 1 - (Nat.toDigits 16 n).length = 0 := by
    have := Nat.length_toDigits_pos (b := 16) (n := n)
    omega
  unfold upperHex capitals zeroPad
  rw [some]
  rfl

/-- A count of units, in both bases. -/
def LimitUnits.shown (units : LimitUnits) : String :=
  toString units.count ++ " (0x" ++ capitals units.count ++ ")"

theorem LimitUnits.text_eq_shown (units : LimitUnits) : units.text = units.shown := by
  unfold text hex shown
  rw [Text.upperHex_eq_capitals]
  rfl

end PackagePower
