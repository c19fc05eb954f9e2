import PackagePower.Text.Digits

/-!
# Register words

A register holds 64 bits. Layouts read fields of consecutive bits with `extractLsb'` and put
them back with `place`, which drops what does not fit the field.
-/

namespace PackagePower

abbrev Word := BitVec 64

namespace Word

/-- Bits `low` to `high` of `value`, moved to the bottom. -/
def field (value : Word) (high low : Nat) : Word :=
  (value.extractLsb' low (high - low + 1)).setWidth 64

theorem getLsbD_field (value : Word) {high low : Nat} (ordered : low ≤ high) (i : Nat) :
    (value.field high low).getLsbD i
      = (decide (i < 64) && decide (low + i ≤ high) && value.getLsbD (low + i)) := by
  have : decide (i < high - low + 1) = decide (low + i ≤ high) := by
    apply decide_eq_decide.2; omega
  simp only [field, BitVec.getLsbD_setWidth, BitVec.getLsbD_extractLsb', this, Bool.and_assoc]

/-- The low `width` bits of `part`, moved up to bit `low`. -/
def place {n : Nat} (low width : Nat) (part : BitVec n) : Word :=
  ((part.setWidth width).setWidth 64) <<< low

def placeBit (index : Nat) (on : Bool) : Word := if on then 1#64 <<< index else 0#64

/-- Sixteen lower-case hexadecimal digits behind `0x`. -/
def text (value : Word) : String := "0x" ++ Text.lowerHex 16 value.toNat

def shortText (value : Word) : String := "0x" ++ Text.upperHex 1 value.toNat

def low (value : Word) : BitVec 32 := value.extractLsb' 0 32

def high (value : Word) : BitVec 32 := value.extractLsb' 32 32

end Word
end PackagePower
