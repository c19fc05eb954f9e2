/-!
# Blank characters and trimming

A character is blank when it has the Unicode property `White_Space`. The property has
twenty-five members; core's `Char.isWhitespace` knows four of them. `trim` removes blanks
from both ends of a text and touches nothing in between.

This module does NOT fold or normalise the characters it keeps.
-/

namespace PackagePower.Text

/-- Ranges of the property `White_Space`, in ascending order. -/
def blankRanges : List (Nat × Nat) :=
  [(0x09, 0x0D), (0x20, 0x20), (0x85, 0x85), (0xA0, 0xA0), (0x1680, 0x1680),
   (0x2000, 0x200A), (0x2028, 0x2029), (0x202F, 0x202F), (0x205F, 0x205F), (0x3000, 0x3000)]

def isBlank (c : Char) : Bool :=
  blankRanges.any fun range => range.1 ≤ c.toNat && c.toNat ≤ range.2

/-- `chars` without its leading and trailing blanks. -/
def trimChars (chars : List Char) : List Char :=
  (((chars.dropWhile isBlank).reverse).dropWhile isBlank).reverse

def trim (text : String) : String := String.ofList (trimChars text.toList)

@[simp] theorem toList_trim (text : String) : (trim text).toList = trimChars text.toList := by
  simp [trim]

@[simp] theorem trimChars_nil : trimChars [] = [] := rfl

/-- Trimming keeps a text that neither begins nor ends with a blank. -/
theorem trimChars_eq_self {chars : List Char}
    (first : ∀ c ∈ chars.head?, isBlank c = false)
    (last : ∀ c ∈ chars.getLast?, isBlank c = false) : trimChars chars = chars := by
  have keep : ∀ {cs : List Char}, (∀ c ∈ cs.head?, isBlank c = false) →
      cs.dropWhile isBlank = cs := by
    intro cs h
    cases cs with
    | nil => rfl
    | cons c rest =>
      have hc := h c (by simp)
      simp [List.dropWhile, hc]
  have reversed : ∀ c ∈ chars.reverse.head?, isBlank c = false := by
    simpa [List.head?_reverse] using last
  simp [trimChars, keep first, keep reversed]

end PackagePower.Text
