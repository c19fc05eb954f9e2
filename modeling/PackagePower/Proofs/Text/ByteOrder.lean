import Mathlib.Data.List.Lex

/-!
# The order of texts by their bytes

Texts are compared by their characters. UTF-8 keeps that order: the lower of two characters has
the lower bytes, whatever follows them. So names in order as texts are in order by their bytes.
-/

namespace PackagePower.Text

def utf8 (text : String) : List UInt8 := text.toUTF8.data.toList

theorem utf8_eq_flatMap (text : String) :
    utf8 text = text.toList.flatMap String.utf8EncodeChar := by
  have encoded : text.toUTF8 = text.toList.utf8Encode := by
    rw [← String.toByteArray_ofList, String.ofList_toList]
    rfl
  unfold utf8
  rw [encoded]
  exact List.toList_data_toByteArray

/-! ## Characters -/

/-- `count` bytes follow the first byte of the character with this code. -/
inductive Follow : (code count : Nat) → Prop where
  | none {code : Nat} : code ≤ 127 → Follow code 0
  | one {code : Nat} : 127 < code → code ≤ 2047 → Follow code 1
  | two {code : Nat} : 2047 < code → code ≤ 65535 → Follow code 2
  | three {code : Nat} : 65535 < code → code < 0x110000 → Follow code 3

/-- What the first byte has besides its part of the code, by how many bytes follow. -/
def mark : Nat → Nat
  | 0 => 0
  | 1 => 192
  | 2 => 224
  | _ => 240

/-- What a digit counts that `count` digits to base 64 follow. -/
def place : (count : Nat) → Nat
  | 0 => 1
  | count + 1 => place count * 64

theorem place_pos (count : Nat) : 0 < place count := by
  induction count with
  | zero => exact Nat.zero_lt_one
  | succ count ih => exact Nat.mul_pos ih (by decide)

/-- The lowest digits of a code to base 64, as the bytes that follow. -/
def digits (code : Nat) : (count : Nat) → List UInt8
  | 0 => []
  | count + 1 => UInt8.ofNat (code / place count % 64 + 128) :: digits code count

theorem utf8EncodeChar_eq (c : Char) : ∃ count, Follow c.val.toNat count ∧
    String.utf8EncodeChar c =
      UInt8.ofNat (mark count + c.val.toNat / place count) :: digits c.val.toNat count := by
  have valid : c.val.toNat < 0x110000 :=
    c.valid.elim (fun low => Nat.lt_trans low (by decide)) (·.2)
  unfold String.utf8EncodeChar
  generalize c.val.toNat = code at valid
  dsimp only
  split
  · rename_i small
    exact ⟨0, .none small, by simp [mark, digits, place]⟩
  · split
    · rename_i large small
      have lead : code / 64 % 32 + 192 = 192 + code / 64 := by omega
      exact ⟨1, .one (Nat.lt_of_not_le large) small, by simp [mark, digits, place, lead]⟩
    · split
      · rename_i large small
        have lead : code / 4096 % 16 + 224 = 224 + code / 4096 := by omega
        exact ⟨2, .two (Nat.lt_of_not_le large) small, by simp [mark, digits, place, lead]⟩
      · rename_i large
        have lead : code / 262144 % 8 + 240 = 240 + code / 262144 := by omega
        exact ⟨3, .three (Nat.lt_of_not_le large) valid, by simp [mark, digits, place, lead]⟩

theorem Follow.lead_lt {code count : Nat} (follow : Follow code count) :
    mark count + code / place count < 256 := by
  cases follow <;> simp only [mark, place, Nat.reduceMul] <;> omega

theorem Follow.lead {low high fewer more : Nat} (first : Follow low fewer)
    (second : Follow high more) (less : low < high) :
    mark fewer + low / place fewer < mark more + high / place more ∨
      fewer = more ∧ low / place fewer = high / place fewer := by
  cases first <;> cases second <;> simp only [mark, place, Nat.reduceMul, true_and] <;> omega

theorem ofNat_lt {low high : Nat} (less : low < high) (small : high < 256) :
    UInt8.ofNat low < UInt8.ofNat high := by
  rw [UInt8.lt_iff_toNat_lt, UInt8.toNat_ofNat', UInt8.toNat_ofNat']
  omega

/-- The digits are in order where the numbers they write are. -/
theorem digits_lt {low high : Nat} {rest other : List UInt8} {count : Nat}
    (less : low % place count < high % place count) :
    digits low count ++ rest < digits high count ++ other := by
  induction count with
  | zero =>
    rw [place, Nat.mod_one, Nat.mod_one] at less
    cases less
  | succ count ih =>
    rw [place, Nat.mod_mul, Nat.mod_mul] at less
    have inside : high % place count < place count := Nat.mod_lt _ (place_pos count)
    have small : high / place count % 64 < 64 := Nat.mod_lt _ (by decide)
    unfold digits
    rw [List.cons_append, List.cons_append, List.cons_lt_cons_iff]
    rcases Nat.lt_trichotomy (low / place count % 64) (high / place count % 64) with
      lead | lead | lead
    · exact .inl (ofNat_lt (by omega) (by omega))
    · rw [lead] at less ⊢
      exact .inr ⟨rfl, ih (by omega)⟩
    · have gap : place count * (high / place count % 64 + 1) ≤
          place count * (low / place count % 64) := Nat.mul_le_mul_left _ lead
      rw [Nat.mul_add_one] at gap
      omega

/-- The lower of two characters has the lower bytes, whatever follows. -/
theorem utf8EncodeChar_lt {lower upper : Char} (less : lower < upper) (rest other : List UInt8) :
    String.utf8EncodeChar lower ++ rest < String.utf8EncodeChar upper ++ other := by
  have less : lower.val.toNat < upper.val.toNat := less
  obtain ⟨fewer, first, lowerBytes⟩ := utf8EncodeChar_eq lower
  obtain ⟨more, second, upperBytes⟩ := utf8EncodeChar_eq upper
  rw [lowerBytes, upperBytes, List.cons_append, List.cons_append, List.cons_lt_cons_iff]
  rcases first.lead second less with lead | ⟨rfl, lead⟩
  · exact .inl (ofNat_lt lead second.lead_lt)
  · refine .inr ⟨by rw [lead], digits_lt ?_⟩
    have lowParts := Nat.div_add_mod lower.val.toNat (place fewer)
    have highParts := Nat.div_add_mod upper.val.toNat (place fewer)
    rw [lead] at lowParts
    omega

/-! ## Texts -/

theorem flatMap_lt {lower upper : List Char} (less : lower < upper) :
    lower.flatMap String.utf8EncodeChar < upper.flatMap String.utf8EncodeChar := by
  induction upper generalizing lower with
  | nil => cases less
  | cons c rest ih =>
    cases lower with
    | nil =>
      obtain ⟨_, _, bytes⟩ := utf8EncodeChar_eq c
      rw [List.flatMap_cons, bytes]
      exact List.nil_lt_cons _ _
    | cons d others =>
      rw [List.flatMap_cons, List.flatMap_cons]
      rcases List.cons_lt_cons_iff.1 less with first | ⟨rfl, later⟩
      · exact utf8EncodeChar_lt first _ _
      · exact List.append_left_lt (ih later)

theorem utf8_lt {lower upper : String} (less : lower < upper) : utf8 lower < utf8 upper := by
  rw [utf8_eq_flatMap, utf8_eq_flatMap]
  exact flatMap_lt less

/-- Texts are in the order of their bytes. -/
theorem utf8_le_iff {lower upper : String} : utf8 lower ≤ utf8 upper ↔ lower ≤ upper := by
  constructor
  · intro ordered less
    exact List.not_lt.2 ordered (utf8_lt less)
  · intro ordered
    by_cases less : lower < upper
    · exact List.le_of_lt (utf8_lt less)
    · rw [String.le_antisymm ordered less]
      exact List.le_refl _

end PackagePower.Text
