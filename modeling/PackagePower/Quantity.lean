import PackagePower.Binary64.Reading
import PackagePower.Fault
import PackagePower.Text.Blank

/-!
# Quantities as an operator types them

Words, counts of units, window offsets and watts. Blanks around a quantity do not matter.
Signs and ranges of watts are not judged here, except that watts are a finite number.
-/

namespace PackagePower.Quantity

def wordDigits : Nat := 16

def byteLength (chars : List Char) : Nat := (String.ofList chars).utf8ByteSize

/-- A word in hexadecimal, with or without a mark in front. -/
def word (text : String) : Except Fault Word :=
  let chars := Text.trimChars text.toList
  let digits := (Text.stripHexMark? chars).getD chars
  if digits.isEmpty || wordDigits < byteLength digits then
    .error (.parse (.hexWord text none))
  else
    match Text.readNumeral 16 UInt64.size digits with
    | .ok n => .ok (BitVec.ofNat 64 n)
    | .error detail => .error (.parse (.hexWord text (some detail)))

/-- A count of units below `2 ^ 16`: decimal, or hexadecimal behind a mark. Whether a field
accepts it is not asked. -/
def units (text : String) : Except Fault Nat :=
  let chars := Text.trimChars text.toList
  let read :=
    match Text.stripHexMark? chars with
    | some digits => Text.readNumeral 16 UInt16.size digits
    | none => Text.readNumeral 10 UInt16.size chars
  read.mapError fun _ => .parse (.units text)

/-- The offset of a register in the window: a word that is a multiple of eight. -/
def offset (text : String) : Except Fault Nat := do
  let value ← word text
  if value.toNat % 8 = 0 then .ok value.toNat else .error (.parse (.unaligned text))

def watts (text : String) : Except Fault Binary64 :=
  match Binary64.ofText? (Text.trim text) with
  | some value => if value.isFinite then .ok value else .error (.parse (.watts text))
  | none => .error (.parse (.watts text))

/-- A whole number of microwatts below `2 ^ 64`, without blanks around it. -/
def microwatts (text : String) : Except Fault UInt64 :=
  match Text.readNumeral 10 UInt64.size text.toList with
  | .ok n => .ok (.ofNat n)
  | .error _ => .error (.parse (.microwatts text))

end PackagePower.Quantity
