import PackagePower.Proofs.Text.Spelling

/-!
# Words as they are typed

A word is one to sixteen hexadecimal digits, with or without a mark in front and blanks around
them. What is read beyond that is a plus sign between the mark and the digits, which takes up the
room of a digit. Sixteen digits never are too large.
-/

namespace PackagePower.Quantity

-- Powers of whole numbers are core's, whatever else is imported.
attribute [local instance (1100)] instPowNat

/-- What may stand in front of the digits. -/
def marks : List (List Char) := [[], ['0', 'x'], ['0', 'X']]

/-- `text` is `value` in hexadecimal with `sign` in front of the digits, which are at least one and
with the sign at most sixteen. -/
def SpellsWord (sign : List Char) (text : String) (value : Word) : Prop :=
  ∃ before mark digits after, text.toList = before ++ (mark ++ (sign ++ digits)) ++ after ∧
    Text.Blank before ∧ Text.Blank after ∧ mark ∈ marks ∧ digits ≠ [] ∧
    (sign ++ digits).length ≤ 16 ∧ Text.Spells 16 digits value.toNat

/-! ## Marks -/

theorem exists_mark (chars : List Char) :
    ∃ mark ∈ marks, chars = mark ++ (Text.stripHexMark? chars).getD chars := by
  unfold Text.stripHexMark?
  split
  · exact ⟨['0', 'x'], by decide, rfl⟩
  · exact ⟨['0', 'X'], by decide, rfl⟩
  · exact ⟨[], by decide, rfl⟩

theorem mem_mark {mark : List Char} {c : Char} (marked : mark ∈ marks) (member : c ∈ mark) :
    c = '0' ∨ c = 'x' ∨ c = 'X' := by
  simp only [marks, List.mem_cons, List.not_mem_nil, or_false] at marked
  rcases marked with rfl | rfl | rfl
  · cases member
  · simp only [List.mem_cons, List.not_mem_nil, or_false] at member
    exact member.imp_right .inl
  · simp only [List.mem_cons, List.not_mem_nil, or_false] at member
    exact member.imp_right .inr

/-- Neither blank, nor part of a mark as its second character, and one byte long. -/
def Plain (c : Char) : Prop := Text.isBlank c = false ∧ c.utf8Size = 1 ∧ c ≠ 'x' ∧ c ≠ 'X'

instance (c : Char) : Decidable (Plain c) :=
  inferInstanceAs (Decidable (Text.isBlank c = false ∧ c.utf8Size = 1 ∧ c ≠ 'x' ∧ c ≠ 'X'))

theorem stripHexMark?_of_plain {chars : List Char} (plain : ∀ c ∈ chars, Plain c) :
    Text.stripHexMark? chars = none := by
  unfold Text.stripHexMark?
  split
  · exact absurd rfl (plain 'x' (by simp)).2.2.1
  · exact absurd rfl (plain 'X' (by simp)).2.2.2
  · rfl

theorem stripped {mark chars : List Char} (marked : mark ∈ marks) (plain : ∀ c ∈ chars, Plain c) :
    (Text.stripHexMark? (mark ++ chars)).getD (mark ++ chars) = chars := by
  simp only [marks, List.mem_cons, List.not_mem_nil, or_false] at marked
  rcases marked with rfl | rfl | rfl
  · rw [List.nil_append, stripHexMark?_of_plain plain]
    rfl
  · rfl
  · rfl

theorem plain_of_spells {sign digits : List Char} {n : Nat} (signed : sign = [] ∨ sign = ['+'])
    (spelled : Text.Spells 16 digits n) : ∀ c ∈ sign ++ digits, Plain c := by
  have each := spelled.induction (P := Plain) ⟨by decide, by decide⟩ (by decide)
  intro c member
  rcases List.mem_append.1 member with front | digit
  · rcases signed with rfl | rfl
    · cases front
    · rw [List.mem_singleton.1 front]
      decide
  · exact each c digit

/-! ## What is read -/

/-- What is left of a text without the blanks around it and the mark in front. -/
def body (text : String) : List Char :=
  let chars := Text.trimChars text.toList
  (Text.stripHexMark? chars).getD chars

variable {text : String} {value : Word} {sign : List Char}

theorem word_eq (text : String) : word text =
    if (body text).isEmpty || wordDigits < byteLength (body text) then
      .error (.parse (.hexWord text none))
    else
      match Text.readNumeral 16 UInt64.size (body text) with
      | .ok n => .ok (BitVec.ofNat 64 n)
      | .error detail => .error (.parse (.hexWord text (some detail))) := rfl

theorem sized_iff : ((body text).isEmpty || decide (wordDigits < byteLength (body text))) = false ↔
    body text ≠ [] ∧ byteLength (body text) ≤ 16 := by
  rw [Bool.or_eq_false_iff, List.isEmpty_eq_false_iff, decide_eq_false_iff_not, Nat.not_lt]
  rfl

theorem word_eq_ok_iff : word text = .ok value ↔ body text ≠ [] ∧ byteLength (body text) ≤ 16 ∧
    Text.readNumeral 16 UInt64.size (body text) = .ok value.toNat := by
  rw [word_eq]
  constructor
  · intro read
    split at read
    · cases read
    · rename_i accepted
      obtain ⟨some, short⟩ := sized_iff.1 (Bool.eq_false_of_not_eq_true accepted)
      refine ⟨some, short, ?_⟩
      split at read
      · rename_i n numeral
        cases read
        rw [BitVec.toNat_ofNat, Nat.mod_eq_of_lt (Text.readNumeral_lt (by decide) numeral)]
        exact numeral
      · cases read
  · rintro ⟨some, short, numeral⟩
    rw [sized_iff.2 ⟨some, short⟩, if_neg Bool.false_ne_true, numeral]
    exact congrArg _ (BitVec.ofNat_toNat 64 value)

/-- What is refused is refused as no word, and never for being too large. -/
theorem of_refused {fault : Fault} (refused : word text = .error fault) :
    ∃ detail, fault = .parse (.hexWord text detail) ∧ detail ≠ some .tooLarge := by
  rw [word_eq] at refused
  split at refused
  · cases refused
    exact ⟨none, rfl, by decide⟩
  · rename_i accepted
    obtain ⟨_, short⟩ := sized_iff.1 (Bool.eq_false_of_not_eq_true accepted)
    split at refused
    · cases refused
    · rename_i detail numeral
      cases refused
      refine ⟨some detail, rfl, ?_⟩
      rintro ⟨⟩
      have few : (body text).length ≤ 16 := Nat.le_trans (length_le_byteLength _) short
      have room : 16 ^ (body text).length ≤ UInt64.size :=
        calc 16 ^ (body text).length ≤ 16 ^ 16 := Nat.pow_le_pow_right (by decide) few
          _ = UInt64.size := by decide
      exact Text.readNumeral_fits (by decide) room numeral

theorem of_word (read : word text = .ok value) :
    SpellsWord [] text value ∨ SpellsWord ['+'] text value := by
  obtain ⟨some, short, numeral⟩ := word_eq_ok_iff.1 read
  obtain ⟨sign, digits, split, signed, digit, spelled, _⟩ :=
    (Text.readNumeral_eq_ok_iff ⟨by decide, by decide⟩ (by decide)).1 numeral
  obtain ⟨before, after, trimmed, opened, closed⟩ := Text.exists_trimChars text.toList
  obtain ⟨mark, marked, whole⟩ := exists_mark (Text.trimChars text.toList)
  have narrow : ∀ c ∈ sign ++ digits, c.utf8Size = 1 := by
    intro c member
    exact (plain_of_spells signed spelled c member).2.1
  have spells : SpellsWord sign text value := by
    refine ⟨before, mark, digits, after, ?_, opened, closed, marked, digit, ?_, spelled⟩
    · rw [← split]
      exact trimmed.trans (congrArg (before ++ · ++ after) whole)
    · rw [← byteLength_eq_length narrow, ← split]
      exact short
  rcases signed with rfl | rfl
  · exact .inl spells
  · exact .inr spells

theorem word_of_spells (signed : sign = [] ∨ sign = ['+']) (spelled : SpellsWord sign text value) :
    word text = .ok value := by
  obtain ⟨before, mark, digits, after, split, opened, closed, marked, digit, short, spells⟩ := spelled
  have plain := plain_of_spells signed spells
  have solid : ∀ c ∈ mark ++ (sign ++ digits), Text.isBlank c = false := by
    intro c member
    rcases List.mem_append.1 member with front | rest
    · rcases mem_mark marked front with rfl | rfl | rfl <;> rfl
    · exact (plain c rest).1
  have trimmed : Text.trimChars text.toList = mark ++ (sign ++ digits) := by
    rw [split, Text.trimChars_of_blank_right closed, Text.trimChars_of_blank_left opened]
    exact Text.trimChars_of_no_blank solid
  have left : body text = sign ++ digits := by
    unfold body
    rw [trimmed]
    exact stripped marked plain
  have narrow : ∀ c ∈ sign ++ digits, c.utf8Size = 1 := by
    intro c member
    exact (plain c member).2.1
  rw [word_eq_ok_iff, left, byteLength_eq_length narrow]
  refine ⟨List.append_ne_nil_of_right_ne_nil _ digit, short, ?_⟩
  rw [Text.readNumeral_eq_ok_iff ⟨by decide, by decide⟩ (by decide)]
  exact ⟨sign, digits, rfl, signed, digit, spells, value.isLt⟩

theorem SpellsWord.no_plus (spelled : SpellsWord [] text value) : '+' ∉ text.toList := by
  obtain ⟨before, mark, digits, after, split, opened, closed, marked, _, _, spells⟩ := spelled
  have digit : '+' ∉ digits := by
    intro member
    exact spells.induction (P := (· ≠ '+')) ⟨by decide, by decide⟩ (by decide) '+' member rfl
  intro member
  rw [split] at member
  simp only [List.mem_append, List.not_mem_nil, false_or] at member
  rcases member with (front | inMark | inDigits) | behind
  · cases opened '+' front
  · rcases mem_mark marked inMark with h | h | h <;> cases h
  · exact digit inDigits
  · cases closed '+' behind

theorem SpellsWord.plus (spelled : SpellsWord ['+'] text value) : '+' ∈ text.toList := by
  obtain ⟨before, mark, digits, after, split, _⟩ := spelled
  rw [split]
  simp

/-- Of a text a word is read exactly where it spells one, or would but for a plus sign in front of
the digits. Texts without a plus sign are read as they spell and no others, and a text that is read
for its sign spells no word. Every other text is refused as no word, and none for being too
large. -/
theorem word_spelled_or_signed (text : String) :
    (∀ value, word text = .ok value ↔
      SpellsWord [] text value ∨ SpellsWord ['+'] text value) ∧
    ('+' ∉ text.toList → ∀ value, word text = .ok value ↔ SpellsWord [] text value) ∧
    (∀ value other, SpellsWord ['+'] text value → ¬ SpellsWord [] text other) ∧
    ∀ fault, word text = .error fault →
      ∃ detail, fault = .parse (.hexWord text detail) ∧ detail ≠ some .tooLarge := by
  refine ⟨?_, ?_, ?_, fun _ => of_refused⟩
  · intro value
    constructor
    · exact of_word
    · rintro (spelled | spelled)
      · exact word_of_spells (.inl rfl) spelled
      · exact word_of_spells (.inr rfl) spelled
  · intro plain value
    constructor
    · intro read
      rcases of_word read with spelled | signed
      · exact spelled
      · exact absurd signed.plus plain
    · exact word_of_spells (.inl rfl)
  · intro value other signed spelled
    exact spelled.no_plus signed.plus

/-- A sign between the mark and the digits is read over. -/
theorem signed_word_is_read :
    word "0x+1" = .ok 1#64 ∧ ¬ ∃ value, SpellsWord [] "0x+1" value := by
  constructor
  · rfl
  · rintro ⟨value, spelled⟩
    exact spelled.no_plus (by decide)

end PackagePower.Quantity
