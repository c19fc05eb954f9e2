import PackagePower.Binary64.Fixed
import PackagePower.Binary64.Reading
import PackagePower.Proofs.Quantity
import PackagePower.Proofs.Text.Span

/-!
# Numbers with a set number of places, read back

Reading the digits of a finite number yields the decimal that they show, rounded once more. That
is the number itself only where its last place was among those shown.
-/

namespace PackagePower

-- Powers of whole numbers are core's, whatever else is imported.
attribute [local instance (1100)] instPowNat

namespace Text

/-- The digits of `n` units of the last of `places` places, with the point among them. -/
def pointed (places n : Nat) : List Char :=
  (splitPlaces places n).1 ++ '.' :: (splitPlaces places n).2

theorem isDigit_of_mem_zeroPad {width n : Nat} {c : Char}
    (member : c ∈ zeroPad width (Nat.toDigits 10 n)) : c.isDigit = true := by
  rcases List.mem_append.1 member with pad | digit
  · rw [(List.mem_replicate.1 pad).2]
    rfl
  · exact Nat.isDigit_of_mem_toDigits (by decide) (by decide) digit

theorem ofDigitChars_zeroPad (width n : Nat) :
    Nat.ofDigitChars 10 (zeroPad width (Nat.toDigits 10 n)) 0 = n := by
  unfold zeroPad
  rw [Nat.ofDigitChars_append, Nat.ofDigitChars_replicate_zero, Nat.mul_zero,
    Nat.ofDigitChars_ten_toDigits]

variable (places n : Nat)

theorem isDigit_of_mem_splitPlaces {c : Char}
    (member : c ∈ (splitPlaces places n).1 ++ (splitPlaces places n).2) : c.isDigit = true := by
  rw [splitPlaces_append] at member
  exact isDigit_of_mem_zeroPad member

/-- There is a digit before the point. -/
theorem whole_nonempty : (splitPlaces places n).1 ≠ [] := by
  intro empty
  have whole := congrArg List.length (splitPlaces_append places n)
  have fraction := length_splitPlaces_snd places n
  rw [empty, List.nil_append, fraction, length_zeroPad] at whole
  omega

theorem digit_of_head_pointed : ∃ c ∈ (pointed places n).head?, c.isDigit = true := by
  obtain ⟨c, rest, same⟩ := List.exists_cons_of_ne_nil (whole_nonempty places n)
  have digit : c.isDigit = true := by
    apply isDigit_of_mem_splitPlaces places n
    rw [same]
    exact List.mem_append_left _ List.mem_cons_self
  refine ⟨c, ?_, digit⟩
  rw [pointed, same]
  rfl

end Text

namespace Binary64

/-- Digits with a point among them are read as the decimal that they show. -/
theorem readDecimal?_pointed (negative : Bool) (places n : Nat) :
    readDecimal? negative (Text.pointed places n) = some (ofDecimal negative n (-places)) := by
  have all {c : Char} := Text.isDigit_of_mem_splitPlaces places n (c := c)
  have whole : (Text.pointed places n).span Char.isDigit =
      ((Text.splitPlaces places n).1, '.' :: (Text.splitPlaces places n).2) := by
    apply Text.span_append
    · intro c member
      exact all (List.mem_append_left _ member)
    · intro c first
      cases first
      rfl
  have fraction : (Text.splitPlaces places n).2.span Char.isDigit =
      ((Text.splitPlaces places n).2, []) :=
    Text.span_all fun c member => all (List.mem_append_right _ member)
  have digits : Nat.ofDigitChars 10
      ((Text.splitPlaces places n).1 ++ (Text.splitPlaces places n).2) 0 = n := by
    rw [Text.splitPlaces_append, Text.ofDigitChars_zeroPad]
  have some := List.isEmpty_eq_false_iff.2 (Text.whole_nonempty places n)
  unfold readDecimal?
  simp only [whole, splitFraction, fraction, some, Bool.false_and, Bool.false_eq_true, if_false,
    readTail?, digits, Text.length_splitPlaces_snd, Option.bind_eq_bind, Option.bind_some,
    Int.zero_sub]

theorem splitSign_signed (negative : Bool) {digits : List Char}
    (first : ∃ c ∈ digits.head?, c.isDigit = true) :
    splitSign (signed negative (String.ofList digits)).toList = (negative, digits) := by
  cases negative with
  | true =>
    have minus : (signed true (String.ofList digits)).toList = '-' :: digits := by
      simp [signed]
    rw [minus]
    rfl
  | false =>
    have bare : (signed false (String.ofList digits)).toList = digits := by
      simp [signed]
    rw [bare]
    obtain ⟨c, head, digit⟩ := first
    unfold splitSign
    split
    · cases head
      cases digit
    · cases head
      cases digit
    · rfl

/-- What is read back of a number written with `places` places. -/
def throughPlaces (places : Nat) : Binary64 → Binary64
  | .finite negative steps _ => ofDecimal negative (fixedUnits places steps) (-places)
  | x => x

/-- Every number is read back from its places, as far as they show it. -/
theorem ofText?_fixed (places : Nat) (x : Binary64) :
    ofText? (x.fixed places) = some (x.throughPlaces places) := by
  cases x with
  | nan =>
    change ofText? nanText = some .nan
    decide
  | infinite negative =>
    change ofText? (signed negative infiniteText) = some (.infinite negative)
    cases negative <;> decide
  | finite negative steps fits =>
    have shown : (Binary64.finite negative steps fits).fixed places =
        signed negative (String.ofList (Text.pointed places (fixedUnits places steps))) := rfl
    unfold ofText?
    rw [shown, splitSign_signed negative (Text.digit_of_head_pointed _ _)]
    simp only [readDecimal?_pointed]
    rfl

end Binary64
end PackagePower
