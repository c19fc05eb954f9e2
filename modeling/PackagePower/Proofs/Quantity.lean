import PackagePower.Proofs.Text.Numeral
import PackagePower.Quantity

/-!
# Words as they are printed

A word is read back from the text that shows it.
-/

namespace PackagePower

-- Powers of whole numbers are core's, whatever else is imported.
attribute [local instance (1100)] instPowNat

namespace Text

theorem digitChar_of_mem_toDigits {base n : Nat} {c : Char} (written : Written base)
    (member : c ∈ Nat.toDigits base n) : ∃ d : Fin 16, c = Nat.digitChar d := by
  obtain ⟨above, most⟩ := written
  induction n using Nat.strongRecOn with
  | ind n ih =>
    rw [Nat.toDigits_eq_if above] at member
    split at member
    · exact ⟨⟨n, by omega⟩, List.mem_singleton.1 member⟩
    · rcases List.mem_append.1 member with earlier | last
      · exact ih (n / base) (Nat.div_lt_self (by omega) above) earlier
      · have below := Nat.mod_lt n (Nat.zero_lt_of_lt above)
        exact ⟨⟨n % base, by omega⟩, List.mem_singleton.1 last⟩

theorem digitChar_of_mem_zeroPad {base width n : Nat} {c : Char} (written : Written base)
    (member : c ∈ zeroPad width (Nat.toDigits base n)) : ∃ d : Fin 16, c = Nat.digitChar d := by
  rcases List.mem_append.1 member with pad | digit
  · exact ⟨0, (List.mem_replicate.1 pad).2⟩
  · exact digitChar_of_mem_toDigits written digit

theorem isBlank_digitChar : ∀ d : Fin 16, isBlank (Nat.digitChar d) = false := by decide

theorem utf8Size_digitChar : ∀ d : Fin 16, (Nat.digitChar d).utf8Size = 1 := by decide

end Text

namespace Word

/-- The digits of a word. -/
def digits (value : Word) : List Char := Text.zeroPad 16 (Nat.toDigits 16 value.toNat)

theorem toList_text (value : Word) : value.text.toList = '0' :: 'x' :: value.digits := by
  unfold text Text.lowerHex
  rw [String.toList_append, String.toList_ofList, String.toList_ofList]
  rfl

theorem length_digits (value : Word) : value.digits.length = 16 := by
  have short : (Nat.toDigits 16 value.toNat).length ≤ 16 :=
    (Nat.length_toDigits_le_iff (by decide) (by decide)).2 value.isLt
  unfold digits
  rw [Text.length_zeroPad]
  omega

theorem digitChar_of_mem_digits {value : Word} {c : Char} (member : c ∈ value.digits) :
    ∃ d : Fin 16, c = Nat.digitChar d :=
  Text.digitChar_of_mem_zeroPad ⟨by decide, by decide⟩ member

theorem digits_nonempty (value : Word) : value.digits ≠ [] := by
  intro empty
  have long := length_digits value
  rw [empty] at long
  cases long

/-- A printed word neither starts nor ends in blanks. -/
theorem trimChars_text (value : Word) :
    Text.trimChars value.text.toList = value.text.toList := by
  rw [toList_text]
  apply Text.trimChars_eq_self
  · intro c first
    cases first
    decide
  · intro c last
    obtain ⟨head, tail, digits⟩ := List.exists_cons_of_ne_nil (digits_nonempty value)
    have member : c ∈ value.digits := by
      rw [digits] at last ⊢
      exact List.mem_of_getLast? last
    obtain ⟨d, rfl⟩ := digitChar_of_mem_digits member
    exact Text.isBlank_digitChar d

end Word

namespace Quantity

theorem byteLength_cons (c : Char) (rest : List Char) :
    byteLength (c :: rest) = c.utf8Size + byteLength rest := by
  unfold byteLength
  rw [String.ofList_cons, String.utf8ByteSize_append, String.utf8ByteSize_singleton]

theorem length_le_byteLength (chars : List Char) : chars.length ≤ byteLength chars := by
  induction chars with
  | nil => exact Nat.le_refl _
  | cons c rest ih =>
    have positive := c.utf8Size_pos
    rw [byteLength_cons, List.length_cons]
    omega

theorem byteLength_eq_length {chars : List Char} (narrow : ∀ c ∈ chars, c.utf8Size = 1) :
    byteLength chars = chars.length := by
  induction chars with
  | nil => rfl
  | cons c rest ih =>
    have first := narrow c List.mem_cons_self
    have later := ih fun c member => narrow c (List.mem_cons_of_mem _ member)
    rw [byteLength_cons, first, later, List.length_cons, Nat.add_comm]

theorem byteLength_digits (value : Word) : byteLength value.digits = 16 := by
  have narrow : ∀ c ∈ value.digits, c.utf8Size = 1 := by
    intro c member
    obtain ⟨d, rfl⟩ := Word.digitChar_of_mem_digits member
    exact Text.utf8Size_digitChar d
  rw [byteLength_eq_length narrow, Word.length_digits]

/-- A word is read back from its text. -/
theorem word_text (value : Word) : word value.text = .ok value := by
  have some : value.digits.isEmpty = false :=
    List.isEmpty_eq_false_iff.2 (Word.digits_nonempty value)
  have read : Text.readNumeral 16 UInt64.size value.digits = .ok value.toNat :=
    Text.readNumeral_zeroPad ⟨by decide, by decide⟩ value.isLt 16
  unfold word
  rw [Word.trimChars_text, Word.toList_text]
  simp only [Text.stripHexMark?, Option.getD_some, some, byteLength_digits, wordDigits, read]
  simp

end Quantity
end PackagePower
