import Mathlib.Data.Nat.Digits.Defs
import PackagePower.Proofs.Text.Solid

/-!
# What a numeral spells

A digit is written in either case, and a row of digits spells a number with the highest first.
Reading a numeral accepts a row of digits whose number is below the bound, with or without a plus
sign in front, and nothing else.
-/

namespace PackagePower.Text

-- Powers of whole numbers are core's, whatever else is imported.
attribute [local instance (1100)] instPowNat

/-! ## Digits -/

/-- `c` is the digit `d` of `base`, in lower or upper case. -/
def IsDigit (base : Nat) (c : Char) (d : Nat) : Prop :=
  d < base ∧ (c = Nat.digitChar d ∨ c = (Nat.digitChar d).toUpper)

/-- `chars` are digits of `base`, and `n` is their number. -/
def Spells (base : Nat) (chars : List Char) (n : Nat) : Prop :=
  ∃ digits, List.Forall₂ (IsDigit base) chars digits ∧ n = Nat.ofDigits base digits.reverse

variable {base bound n d : Nat} {c : Char} {chars : List Char}

/-- What holds of the sixteen digits in both cases holds of each digit. -/
theorem IsDigit.induction {P : Char → Prop} (written : Written base) (digit : IsDigit base c d)
    (each : ∀ d : Fin 16, P (Nat.digitChar d) ∧ P (Nat.digitChar d).toUpper) : P c := by
  obtain ⟨below, written_as⟩ := digit
  obtain ⟨lower, upper⟩ := each ⟨d, Nat.lt_of_lt_of_le below written.2⟩
  rcases written_as with rfl | rfl
  · exact lower
  · exact upper

theorem digit?_toUpper (written : Written base) (below : d < base) :
    digit? base (Nat.digitChar d).toUpper = some d := by
  obtain ⟨_, most⟩ := written
  have each : ∀ b : Fin 17, ∀ d : Fin 16, d.val < b.val →
      digit? b.val (Nat.digitChar d.val).toUpper = some d.val := by decide
  exact each ⟨base, by omega⟩ ⟨d, by omega⟩ below

theorem digit?_mono {wider : Nat} (le : base ≤ wider) (found : digit? base c = some d) :
    digit? wider c = some d := by
  obtain ⟨counted, below⟩ := Option.filter_eq_some_iff.1 found
  have fits : d < wider := Nat.lt_of_lt_of_le (of_decide_eq_true below) le
  exact Option.filter_eq_some_iff.2 ⟨counted, decide_eq_true fits⟩

theorem toNat_lt_of_digit? (found : digit? base c = some d) : c.toNat < 128 := by
  have le {last : Char} (most : c ≤ last) : c.toNat ≤ last.toNat := by
    rw [Char.le_def, UInt32.le_iff_toNat_le] at most
    exact most
  obtain ⟨counted, _⟩ := Option.filter_eq_some_iff.1 found
  split at counted
  · rename_i range
    exact Nat.lt_of_le_of_lt (le range.2) (by decide)
  split at counted
  · rename_i range
    exact Nat.lt_of_le_of_lt (le range.2) (by decide)
  split at counted
  · rename_i range
    exact Nat.lt_of_le_of_lt (le range.2) (by decide)
  · cases counted

theorem isDigit_of_digit? (written : Written base) (found : digit? base c = some d) :
    IsDigit base c d := by
  have below := digit?_lt found
  have each : ∀ n : Fin 128, ∀ d : Fin 16, digit? 16 (Char.ofNat n.val) = some d.val →
      Char.ofNat n.val = Nat.digitChar d.val ∨ Char.ofNat n.val = (Nat.digitChar d.val).toUpper := by
    decide +kernel
  have ascii := each ⟨c.toNat, toNat_lt_of_digit? found⟩ ⟨d, Nat.lt_of_lt_of_le below written.2⟩
  rw [Char.ofNat_toNat] at ascii
  exact ⟨below, ascii (digit?_mono written.2 found)⟩

theorem digit?_eq_some_iff (written : Written base) :
    digit? base c = some d ↔ IsDigit base c d := by
  constructor
  · exact isDigit_of_digit? written
  · rintro ⟨below, rfl | rfl⟩
    · exact digit?_digitChar written below
    · exact digit?_toUpper written below

/-! ## Rows of digits -/

theorem le_ofDigits_append (positive : 0 < base) (digits : List Nat) (value : Nat) :
    value ≤ Nat.ofDigits base (digits ++ [value]) := by
  rw [Nat.ofDigits_append, Nat.ofDigits_singleton]
  have one : 0 < base ^ digits.length := Nat.pow_pos positive
  have more : value ≤ base ^ digits.length * value := Nat.le_mul_of_pos_left value one
  omega

/-- Digits follow a number as if it were the first of them. -/
theorem readDigits_eq_ok_iff (written : Written base) {value : Nat} (small : value < bound) :
    readDigits base bound value chars = .ok n ↔
      ∃ digits, List.Forall₂ (IsDigit base) chars digits ∧
        n = Nat.ofDigits base (digits.reverse ++ [value]) ∧ n < bound := by
  have positive : 0 < base := Nat.zero_lt_of_lt written.1
  induction chars generalizing value with
  | nil =>
    constructor
    · intro read
      cases read
      exact ⟨[], .nil, Nat.ofDigits_singleton.symm, small⟩
    · rintro ⟨digits, row, rfl, _⟩
      cases row
      exact congrArg _ Nat.ofDigits_singleton.symm
  | cons c rest ih =>
    have follow (d : Nat) (digits : List Nat) :
        Nat.ofDigits base ((d :: digits).reverse ++ [value]) =
          Nat.ofDigits base (digits.reverse ++ [base * value + d]) := by
      rw [List.reverse_cons, List.append_assoc, List.singleton_append, Nat.ofDigits_append,
        Nat.ofDigits_append, Nat.ofDigits_singleton, Nat.ofDigits_cons, Nat.ofDigits_singleton,
        Nat.add_comm d]
    constructor
    · intro read
      rw [readDigits] at read
      split at read
      · cases read
      · rename_i d digit
        split at read
        · rename_i fits
          obtain ⟨digits, row, number, below⟩ := (ih fits).1 read
          refine ⟨d :: digits, .cons (isDigit_of_digit? written digit) row, ?_, below⟩
          rw [follow]
          exact number
        · cases read
    · intro spelled
      obtain ⟨_, row, number, below⟩ := spelled
      cases row with
      | @cons _ d _ digits digit row =>
        rw [follow] at number
        have most := le_ofDigits_append positive digits.reverse (base * value + d)
        have fits : base * value + d < bound := by omega
        rw [readDigits, (digit?_eq_some_iff written).2 digit]
        simp only [fits, if_true]
        exact (ih fits).2 ⟨digits, row, number, below⟩

theorem spells_iff_readDigits (written : Written base) (positive : 0 < bound) :
    readDigits base bound 0 chars = .ok n ↔ Spells base chars n ∧ n < bound := by
  rw [readDigits_eq_ok_iff written positive]
  unfold Spells
  simp only [Nat.ofDigits_append_zero, exists_and_right, ← and_assoc]

/-- What holds of the sixteen digits in both cases holds all along a row of digits. -/
theorem Spells.induction {P : Char → Prop} (written : Written base) (spelled : Spells base chars n)
    (each : ∀ d : Fin 16, P (Nat.digitChar d) ∧ P (Nat.digitChar d).toUpper) :
    ∀ c ∈ chars, P c := by
  obtain ⟨digits, row, -⟩ := spelled
  induction row with
  | nil =>
    intro c member
    cases member
  | cons digit _ ih =>
    intro c member
    rcases List.mem_cons.1 member with rfl | later
    · exact digit.induction written each
    · exact ih c later

theorem readDigits_fits {value : Nat} (room : (value + 1) * base ^ chars.length ≤ bound) :
    readDigits base bound value chars ≠ .error .tooLarge := by
  induction chars generalizing value with
  | nil =>
    intro failed
    cases failed
  | cons c rest ih =>
    intro failed
    rw [readDigits] at failed
    split at failed
    · cases failed
    · rename_i d digit
      have below : base * value + d + 1 ≤ (value + 1) * base := by
        have := digit?_lt digit
        rw [Nat.add_mul, Nat.one_mul, Nat.mul_comm value]
        omega
      have later : (base * value + d + 1) * base ^ rest.length ≤ bound := by
        rw [List.length_cons, Nat.pow_succ', ← Nat.mul_assoc] at room
        exact Nat.le_trans (Nat.mul_le_mul_right _ below) room
      have fits : base * value + d < bound := by
        have one : 0 < base ^ rest.length := Nat.pow_pos (by have := digit?_lt digit; omega)
        have := Nat.le_mul_of_pos_right (base * value + d + 1) one
        omega
      rw [if_pos fits] at failed
      exact ih later failed

/-! ## Numerals -/

theorem readNumeral_unsigned (some : chars ≠ []) (plain : '+' ∉ chars) :
    readNumeral base bound chars = readDigits base bound 0 chars := by
  unfold readNumeral
  split
  · exact absurd rfl some
  · exact absurd List.mem_cons_self plain
  · exact absurd List.mem_cons_self plain
  · rfl

theorem readNumeral_signed (some : chars ≠ []) :
    readNumeral base bound ('+' :: chars) = readDigits base bound 0 chars := by
  cases chars with
  | nil => exact absurd rfl some
  | cons c rest => rfl

/-- A numeral is a row of digits, with or without a plus sign in front. -/
theorem readNumeral_eq_ok_iff (written : Written base) (positive : 0 < bound) :
    readNumeral base bound chars = .ok n ↔
      ∃ sign digits, chars = sign ++ digits ∧ (sign = [] ∨ sign = ['+']) ∧ digits ≠ [] ∧
        Spells base digits n ∧ n < bound := by
  constructor
  · intro read
    unfold readNumeral at read
    split at read
    · cases read
    · cases read
    · rename_i digits alone
      have some : digits ≠ [] := by
        rintro rfl
        exact alone rfl
      exact ⟨['+'], digits, rfl, .inr rfl, some, (spells_iff_readDigits written positive).1 read⟩
    · rename_i some _ _
      exact ⟨[], chars, rfl, .inl rfl, some, (spells_iff_readDigits written positive).1 read⟩
  · rintro ⟨sign, digits, rfl, rfl | rfl, some, spelled⟩
    · have plain : '+' ∉ digits := by
        intro member
        exact spelled.1.induction (P := (· ≠ '+')) written (by decide) '+' member rfl
      rw [List.nil_append, readNumeral_unsigned some plain]
      exact (spells_iff_readDigits written positive).2 spelled
    · rw [List.singleton_append, readNumeral_signed some]
      exact (spells_iff_readDigits written positive).2 spelled

/-- No numeral is too large that has no more characters than there is room for digits. -/
theorem readNumeral_fits (positive : 0 < base) (room : base ^ chars.length ≤ bound) :
    readNumeral base bound chars ≠ .error .tooLarge := by
  unfold readNumeral
  split
  · intro failed
    cases failed
  · intro failed
    cases failed
  · rename_i digits _
    apply readDigits_fits
    rw [Nat.zero_add, Nat.one_mul]
    exact Nat.le_trans (Nat.pow_le_pow_right positive (Nat.le_succ _)) room
  · apply readDigits_fits
    rw [Nat.zero_add, Nat.one_mul]
    exact room

end PackagePower.Text
