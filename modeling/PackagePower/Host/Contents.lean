import PackagePower.Register.Word

/-!
# Contents of a file

Contents are a size and a byte for every position, zero from the size on. Large files that
are mostly zero cost nothing, and two contents are equal exactly when size and bytes agree.

Registers are eight bytes, the lowest first. A positioned write past the end makes the file
longer; a store through a mapping never does.
-/

namespace PackagePower

namespace Word

/-- Bytes from `start` on as one number, the lowest first. -/
def littleEndian (bytes : Nat → UInt8) : (start count : Nat) → BitVec (8 * count)
  | _, 0 => 0#0
  | start, count + 1 =>
    (littleEndian bytes (start + 1) count ++ (bytes start).toBitVec).cast (by omega)

/-- The word whose lowest byte is at `start`. -/
def ofBytes (bytes : Nat → UInt8) (start : Nat) : Word := littleEndian bytes start 8

/-- Byte `index` of a word, counted from the lowest. -/
def byteAt (value : Word) (index : Nat) : UInt8 := .ofBitVec (value.extractLsb' (8 * index) 8)

theorem getLsbD_littleEndian (bytes : Nat → UInt8) (start count : Nat) {i : Nat}
    (inside : i < 8 * count) :
    (littleEndian bytes start count).getLsbD i
      = (bytes (start + i / 8)).toBitVec.getLsbD (i % 8) := by
  induction count generalizing start i with
  | zero => omega
  | succ count ih =>
    simp only [littleEndian, BitVec.getLsbD_cast, BitVec.getLsbD_append]
    by_cases first : i < 8
    · simp [first, Nat.div_eq_of_lt first, Nat.mod_eq_of_lt first]
    · rw [if_neg first, ih _ (by omega)]
      have quotient : start + 1 + (i - 8) / 8 = start + i / 8 := by omega
      have remainder : (i - 8) % 8 = i % 8 := by omega
      rw [quotient, remainder]

theorem byteAt_ofBytes (bytes : Nat → UInt8) (start : Nat) {index : Nat} (inside : index < 8) :
    (ofBytes bytes start).byteAt index = bytes (start + index) := by
  apply UInt8.toBitVec_inj.1
  apply BitVec.eq_of_getLsbD_eq
  intro i hi
  simp only [byteAt, UInt8.toBitVec_ofBitVec, BitVec.getLsbD_extractLsb', ofBytes]
  rw [getLsbD_littleEndian _ _ _ (by omega)]
  have quotient : (8 * index + i) / 8 = index := by omega
  have remainder : (8 * index + i) % 8 = i := by omega
  simp [quotient, remainder, hi]

theorem ofBytes_byteAt (value : Word) : ofBytes value.byteAt 0 = value := by
  apply BitVec.eq_of_getLsbD_eq
  intro i hi
  rw [ofBytes, getLsbD_littleEndian _ _ _ (by omega)]
  have : 8 * (i / 8) + i % 8 = i := by omega
  simp [byteAt, this, Nat.mod_lt i (by decide : 8 > 0)]

theorem ofBytes_congr {bytes other : Nat → UInt8} {start beside : Nat}
    (same : ∀ index < 8, bytes (start + index) = other (beside + index)) :
    ofBytes bytes start = ofBytes other beside := by
  apply BitVec.eq_of_getLsbD_eq
  intro i hi
  simp only [ofBytes]
  rw [getLsbD_littleEndian _ _ _ (by omega), getLsbD_littleEndian _ _ _ (by omega),
    same (i / 8) (by omega)]

end Word

@[ext] structure Contents where
  size : Nat
  byte : Nat → UInt8
  zero_beyond : ∀ i, size ≤ i → byte i = 0

/-- A register read from a position: all eight bytes or the few there were. -/
inductive Reading where
  | complete (value : Word)
  | short (got : Nat)
  deriving DecidableEq

namespace Contents

def zeros (size : Nat) : Contents := ⟨size, fun _ => 0, fun _ _ => rfl⟩

def ofBytes (bytes : ByteArray) : Contents where
  size := bytes.size
  byte i := if h : i < bytes.size then bytes[i] else 0
  zero_beyond i h := by rw [dif_neg (by omega)]

def ofText (text : String) : Contents := ofBytes text.toUTF8

def toBytes (contents : Contents) : ByteArray :=
  ⟨((List.range contents.size).map contents.byte).toArray⟩

/-- The text that the bytes encode, if they do. -/
def text? (contents : Contents) : Option String := String.fromUTF8? contents.toBytes

def read (contents : Contents) (offset : Nat) : Reading :=
  if offset + 8 ≤ contents.size then .complete (Word.ofBytes contents.byte offset)
  else .short (contents.size - offset)

/-- Bytes with those of `value` in place of eight. -/
def patch (bytes : Nat → UInt8) (offset : Nat) (value : Word) (i : Nat) : UInt8 :=
  if offset ≤ i ∧ i < offset + 8 then value.byteAt (i - offset) else bytes i

/-- Writes a register at `offset`; the file grows if it must. -/
def write (contents : Contents) (offset : Nat) (value : Word) : Contents where
  size := max contents.size (offset + 8)
  byte := patch contents.byte offset value
  zero_beyond i h := by
    unfold patch
    rw [if_neg (by omega)]
    exact contents.zero_beyond i (by omega)

/-- Stores a register through a mapping, as far as the file reaches. -/
def store (contents : Contents) (offset : Nat) (value : Word) : Contents where
  size := contents.size
  byte i := if i < contents.size then patch contents.byte offset value i else 0
  zero_beyond i h := by rw [if_neg (by omega)]

theorem byte_patch_outside {bytes : Nat → UInt8} {offset : Nat} {value : Word} {i : Nat}
    (outside : i < offset ∨ offset + 8 ≤ i) : patch bytes offset value i = bytes i := by
  unfold patch
  rw [if_neg (by omega)]

theorem ofBytes_patch (bytes : Nat → UInt8) (offset : Nat) (value : Word) :
    Word.ofBytes (patch bytes offset value) offset = value := by
  rw [← Word.ofBytes_byteAt value]
  apply Word.ofBytes_congr
  intro index inside
  have : offset + index - offset = 0 + index := by omega
  simp only [patch, this, Word.ofBytes_byteAt]
  rw [if_pos (by omega)]

theorem read_write (contents : Contents) (offset : Nat) (value : Word) :
    (contents.write offset value).read offset = .complete value := by
  have reach : offset + 8 ≤ (contents.write offset value).size := by simp only [write]; omega
  rw [read, if_pos reach]
  simp only [write, ofBytes_patch]

@[simp] theorem size_store (contents : Contents) (offset : Nat) (value : Word) :
    (contents.store offset value).size = contents.size := rfl

theorem read_store {contents : Contents} {offset : Nat} (inside : offset + 8 ≤ contents.size)
    (value : Word) : (contents.store offset value).read offset = .complete value := by
  rw [read, size_store, if_pos inside, ← ofBytes_patch contents.byte offset value]
  congr 1
  apply Word.ofBytes_congr
  intro index small
  simp only [store, ofBytes_patch]
  rw [if_pos (by omega)]

end Contents
end PackagePower
