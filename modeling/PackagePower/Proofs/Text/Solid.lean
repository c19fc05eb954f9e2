import PackagePower.Proofs.Quantity

/-!
# Texts without blanks

Numbers are written without blanks, so a text that is a number keeps to its line and is what is
left of it when blanks around it are taken away.
-/

namespace PackagePower

-- Powers of whole numbers are core's, whatever else is imported.
attribute [local instance (1100)] instPowNat

namespace Text

/-- The text holds no blank, so that no line ends in it and trimming leaves it alone. -/
def Solid (text : String) : Prop := ∀ c ∈ text.toList, isBlank c = false

instance (text : String) : Decidable (Solid text) :=
  List.decidableBAll (fun c => isBlank c = false) text.toList

theorem Solid.no_line_end {text : String} (solid : Solid text) : '\n' ∉ text.toList := by
  intro member
  cases solid '\n' member

theorem trimChars_of_no_blank {chars : List Char} (solid : ∀ c ∈ chars, isBlank c = false) :
    trimChars chars = chars := by
  apply trimChars_eq_self
  · intro c first
    exact solid c (List.mem_of_mem_head? first)
  · intro c last
    exact solid c (List.mem_of_getLast? last)

theorem Solid.trimChars {text : String} (solid : Solid text) :
    trimChars text.toList = text.toList :=
  trimChars_of_no_blank solid

/-! ## Blanks around a text -/

/-- The text is blank from end to end. -/
def Blank (chars : List Char) : Prop := ∀ c ∈ chars, isBlank c = true

instance (chars : List Char) : Decidable (Blank chars) :=
  List.decidableBAll (fun c => isBlank c = true) chars

theorem trimChars_of_blank_left {before chars : List Char} (blank : Blank before) :
    trimChars (before ++ chars) = trimChars chars := by
  unfold trimChars
  rw [List.dropWhile_append_of_pos blank]

theorem trimChars_of_blank_right {chars after : List Char} (blank : Blank after) :
    trimChars (chars ++ after) = trimChars chars := by
  have reversed : ∀ c ∈ after.reverse, isBlank c = true := by
    intro c member
    exact blank c (List.mem_reverse.1 member)
  have gone : after.dropWhile isBlank = [] := by
    have dropped : (after ++ []).dropWhile isBlank = [] := List.dropWhile_append_of_pos blank
    rwa [List.append_nil] at dropped
  unfold trimChars
  rw [List.dropWhile_append]
  split
  · rename_i nothing
    rw [gone, List.isEmpty_iff.1 nothing]
  · rw [List.reverse_append, List.dropWhile_append_of_pos reversed]

theorem exists_trimChars (chars : List Char) :
    ∃ before after, chars = before ++ trimChars chars ++ after ∧ Blank before ∧ Blank after := by
  have leading (cs : List Char) : Blank (cs.takeWhile isBlank) := by
    intro c member
    exact List.all_eq_true.1 List.all_takeWhile c member
  let rest := (chars.dropWhile isBlank).reverse
  have split : rest.takeWhile isBlank ++ rest.dropWhile isBlank = rest :=
    List.takeWhile_append_dropWhile
  refine ⟨chars.takeWhile isBlank, (rest.takeWhile isBlank).reverse, ?_, leading chars, ?_⟩
  · have turned : trimChars chars ++ (rest.takeWhile isBlank).reverse =
        chars.dropWhile isBlank := by
      unfold trimChars
      rw [← List.reverse_append, split, List.reverse_reverse]
    rw [List.append_assoc, turned, List.takeWhile_append_dropWhile]
  · intro c member
    exact leading rest c (List.mem_reverse.1 member)

theorem not_isBlank_head_dropWhile {chars : List Char} {c : Char}
    (first : c ∈ (chars.dropWhile isBlank).head?) : isBlank c = false := by
  have kept := List.head?_dropWhile_not isBlank chars
  rw [Option.mem_def.1 first] at kept
  exact kept

theorem trimChars_ends (chars : List Char) :
    (∀ c ∈ (trimChars chars).head?, isBlank c = false) ∧
      ∀ c ∈ (trimChars chars).getLast?, isBlank c = false := by
  constructor
  · intro c first
    -- What is left begins like the text behind its leading blanks.
    have opening : trimChars chars <+: chars.dropWhile isBlank := by
      have suffix := List.dropWhile_suffix isBlank (l := (chars.dropWhile isBlank).reverse)
      have turned := List.reverse_prefix.2 suffix
      rwa [List.reverse_reverse] at turned
    obtain ⟨tail, whole⟩ := opening
    obtain ⟨rest, kept⟩ := List.head?_eq_some_iff.1 first
    rw [kept] at whole
    apply not_isBlank_head_dropWhile
    rw [← whole]
    rfl
  · intro c last
    unfold trimChars at last
    rw [List.getLast?_reverse] at last
    exact not_isBlank_head_dropWhile last

/-- Trimming leaves what stands between blanks and neither begins nor ends with one. -/
theorem trimChars_eq_iff {chars middle : List Char} :
    trimChars chars = middle ↔
      ∃ before after, chars = before ++ middle ++ after ∧ Blank before ∧ Blank after ∧
        (∀ c ∈ middle.head?, isBlank c = false) ∧ ∀ c ∈ middle.getLast?, isBlank c = false := by
  constructor
  · rintro rfl
    obtain ⟨before, after, whole, opened, closed⟩ := exists_trimChars chars
    exact ⟨before, after, whole, opened, closed, trimChars_ends chars⟩
  · rintro ⟨before, after, rfl, opened, closed, first, last⟩
    rw [trimChars_of_blank_right closed, trimChars_of_blank_left opened]
    exact trimChars_eq_self first last

/-- Blanks on both sides of a solid text are all that trimming takes away. -/
theorem Solid.trimChars_between {text : String} (solid : Solid text) {before after : List Char}
    (opened : Blank before) (closed : Blank after) :
    Text.trimChars (before ++ text.toList ++ after) = text.toList := by
  rw [trimChars_of_blank_right closed, trimChars_of_blank_left opened]
  exact solid.trimChars

theorem solid_ofList {chars : List Char} (solid : ∀ c ∈ chars, isBlank c = false) :
    Solid (String.ofList chars) := by
  intro c member
  rw [String.toList_ofList] at member
  exact solid c member

theorem isBlank_of_mem_zeroPad {base width n : Nat} {c : Char} (written : Written base)
    (member : c ∈ zeroPad width (Nat.toDigits base n)) : isBlank c = false := by
  obtain ⟨d, rfl⟩ := digitChar_of_mem_zeroPad written member
  exact isBlank_digitChar d

theorem toList_decimal (n : Nat) : (decimal n).toList = zeroPad 0 (Nat.toDigits 10 n) := by
  rw [decimal, String.toList_ofList, zeroPad, Nat.zero_sub]
  rfl

theorem solid_decimal (n : Nat) : Solid (decimal n) := by
  intro c member
  rw [toList_decimal] at member
  exact isBlank_of_mem_zeroPad ⟨by decide, by decide⟩ member

theorem readNumeral_decimal {bound n : Nat} (fits : n < bound) :
    readNumeral 10 bound (decimal n).toList = .ok n := by
  rw [toList_decimal]
  exact readNumeral_zeroPad ⟨by decide, by decide⟩ fits 0

end Text

theorem Word.solid_text (value : Word) : Text.Solid value.text := by
  intro c member
  rw [Word.toList_text] at member
  rcases List.mem_cons.1 member with rfl | member
  · decide
  rcases List.mem_cons.1 member with rfl | member
  · decide
  · exact Text.isBlank_of_mem_zeroPad ⟨by decide, by decide⟩ member

end PackagePower
