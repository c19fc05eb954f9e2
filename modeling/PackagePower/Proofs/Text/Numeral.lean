import PackagePower.Text.Numeral

/-!
# Numbers written and read back

A number below the bound is read back from its digits, whatever zeros stand in front, in every
base whose digits `Nat.digitChar` writes.
-/

namespace PackagePower.Text

-- Powers of whole numbers are core's, whatever else is imported.
attribute [local instance (1100)] instPowNat

/-- Bases whose digits are written and read alike. -/
def Written (base : Nat) : Prop := 1 < base ∧ base ≤ 16

theorem digit?_digitChar {base d : Nat} (written : Written base) (below : d < base) :
    digit? base (Nat.digitChar d) = some d := by
  obtain ⟨_, most⟩ := written
  have each : ∀ b : Fin 17, ∀ d : Fin 16, d.val < b.val →
      digit? b.val (Nat.digitChar d.val) = some d.val := by decide
  exact each ⟨base, by omega⟩ ⟨d, by omega⟩ below

theorem readDigits_append {base bound value middle : Nat} {before after : List Char}
    (first : readDigits base bound value before = .ok middle) :
    readDigits base bound value (before ++ after) = readDigits base bound middle after := by
  fun_induction readDigits base bound value before with
  | case1 value =>
    cases first
    rfl
  | case2 value c rest bad => cases first
  | case3 value c rest d digit fits ih =>
    rw [List.cons_append, readDigits, digit]
    simp only [fits, if_true]
    exact ih first
  | case4 value c rest d digit exceeds => cases first

theorem readDigits_digitChar {base bound value d : Nat} (written : Written base) (below : d < base)
    (fits : base * value + d < bound) :
    readDigits base bound value [Nat.digitChar d] = .ok (base * value + d) := by
  rw [readDigits, digit?_digitChar written below]
  simp only [fits, if_true]
  rfl

theorem readDigits_toDigits {base bound n : Nat} (written : Written base) (fits : n < bound) :
    readDigits base bound 0 (Nat.toDigits base n) = .ok n := by
  induction n using Nat.strongRecOn with
  | ind n ih =>
    have above := written.1
    rw [Nat.toDigits_eq_if above]
    split
    · rename_i small
      have whole : base * 0 + n = n := by omega
      rw [readDigits_digitChar written small (by omega), whole]
    · have fewer : n / base < n := Nat.div_lt_self (by omega) above
      have whole : base * (n / base) + n % base = n := Nat.div_add_mod n base
      rw [readDigits_append (ih (n / base) fewer (by omega)),
        readDigits_digitChar written (Nat.mod_lt n (by omega)) (by omega), whole]

theorem readDigits_replicate {base bound : Nat} (written : Written base) (positive : 0 < bound)
    (count : Nat) : readDigits base bound 0 (List.replicate count '0') = .ok 0 := by
  induction count with
  | zero => rfl
  | succ count ih =>
    have zero : readDigits base bound 0 ['0'] = .ok 0 :=
      readDigits_digitChar written (d := 0) (by have := written.1; omega) (by omega)
    exact (readDigits_append zero).trans ih

theorem readDigits_zeroPad {base bound n : Nat} (written : Written base) (fits : n < bound)
    (width : Nat) : readDigits base bound 0 (zeroPad width (Nat.toDigits base n)) = .ok n := by
  unfold zeroPad
  rw [readDigits_append (readDigits_replicate written (by omega) _)]
  exact readDigits_toDigits written fits

/-- A number is read back from its digits. -/
theorem readNumeral_zeroPad {base bound n : Nat} (written : Written base) (fits : n < bound)
    (width : Nat) : readNumeral base bound (zeroPad width (Nat.toDigits base n)) = .ok n := by
  have read := readDigits_zeroPad written fits width
  unfold readNumeral
  split
  · rename_i empty
    have long := length_zeroPad width (Nat.toDigits base n)
    have some : 0 < (Nat.toDigits base n).length := Nat.length_toDigits_pos
    rw [empty, List.length_nil] at long
    omega
  · rename_i plus
    rw [plus] at read
    cases read
  · rename_i plus
    rw [plus] at read
    cases read
  · exact read

end PackagePower.Text
