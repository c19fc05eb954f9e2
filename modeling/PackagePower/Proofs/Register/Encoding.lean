import PackagePower.Device.RegisterFile
import PackagePower.Proofs.Register.PowerLimit

/-!
# Registers encoded and decoded

A field that is placed in a word is read back as far as it fits, whatever else is placed. So
encoding reduces each value to the width of its field and loses nothing more, and it loses nothing
exactly where there is no defect. A decoded word has none, and encoding it again clears the bits
that belong to no field.
-/

namespace PackagePower

-- Powers of whole numbers are core's, whatever else is imported.
attribute [local instance (1100)] instPowNat

namespace Word

/-! ## Fields placed in a word -/

theorem getLsbD_place {n : Nat} (low width : Nat) (part : BitVec n) (i : Nat) :
    (place low width part).getLsbD i =
      (decide (i < 64 ∧ low ≤ i ∧ i < low + width) && part.getLsbD (i - low)) := by
  unfold place
  rw [BitVec.getLsbD_shiftLeft, BitVec.getLsbD_setWidth, BitVec.getLsbD_setWidth]
  by_cases inside : i < 64 ∧ low ≤ i ∧ i < low + width
  · have within : i - low < 64 ∧ i - low < width := by omega
    simp [inside, within]
  · have without : ¬ i < 64 ∨ i < low ∨ ¬ i - low < width := by omega
    rcases without with far | before | behind <;> simp [*]

theorem getLsbD_placeBit (index : Nat) (on : Bool) (i : Nat) :
    (placeBit index on).getLsbD i = (decide (i < 64 ∧ i = index) && on) := by
  cases on with
  | false => simp [placeBit]
  | true =>
    simp only [placeBit, if_true, BitVec.getLsbD_shiftLeft, BitVec.getLsbD_one, Bool.and_true]
    grind

theorem extractLsb'_of_bits {n low width : Nat} {value : Word} {part : BitVec n}
    (bits : ∀ i < width, value.getLsbD (low + i) = part.getLsbD i) :
    value.extractLsb' low width = part.setWidth width := by
  apply BitVec.eq_of_getLsbD_eq
  intro i inside
  rw [BitVec.getLsbD_extractLsb', BitVec.getLsbD_setWidth, bits i inside]

theorem setWidth_setWidth {n width : Nat} (narrow : width < n) (part : BitVec n) :
    (part.setWidth width).setWidth n = part % BitVec.twoPow n width := by
  have room : 2 ^ width < 2 ^ n := Nat.pow_lt_pow_right (by decide) narrow
  have small : part.toNat % 2 ^ width < 2 ^ width := Nat.mod_lt _ (Nat.two_pow_pos width)
  apply BitVec.eq_of_toNat_eq
  rw [BitVec.toNat_setWidth, BitVec.toNat_setWidth, BitVec.toNat_umod,
    BitVec.toNat_twoPow_of_lt narrow]
  exact Nat.mod_eq_of_lt (Nat.lt_trans small room)

theorem umod_eq_self_iff {n : Nat} (part bound : BitVec n) (positive : bound.toNat ≠ 0) :
    part % bound = part ↔ part.toNat < bound.toNat := by
  rw [← BitVec.toNat_inj, BitVec.toNat_umod]
  exact Nat.mod_eq_iff_lt positive

end Word

/-! ## Units -/

namespace PowerUnit

variable (unit : PowerUnit)

/-- The unit with each exponent reduced to the width of its field. -/
def truncated : PowerUnit := ⟨unit.power % 16#8, unit.energy % 32#8, unit.time % 16#8⟩

theorem getLsbD_encode (i : Nat) : unit.encode.getLsbD i =
    ((decide (i < 4) && unit.power.getLsbD i) ||
      (decide (8 ≤ i ∧ i < 13) && unit.energy.getLsbD (i - 8)) ||
      (decide (16 ≤ i ∧ i < 20) && unit.time.getLsbD (i - 16))) := by
  unfold encode
  simp only [BitVec.getLsbD_or, Word.getLsbD_place]
  grind

theorem decode_encode : decode unit.encode = unit.truncated := by
  have power : unit.encode.extractLsb' 0 4 = unit.power.setWidth 4 := by
    apply Word.extractLsb'_of_bits
    intro i inside
    rw [getLsbD_encode]
    grind
  have energy : unit.encode.extractLsb' 8 5 = unit.energy.setWidth 5 := by
    apply Word.extractLsb'_of_bits
    intro i inside
    rw [getLsbD_encode]
    grind
  have time : unit.encode.extractLsb' 16 4 = unit.time.setWidth 4 := by
    apply Word.extractLsb'_of_bits
    intro i inside
    rw [getLsbD_encode]
    grind
  unfold decode truncated
  rw [power, energy, time, Word.setWidth_setWidth (by decide), Word.setWidth_setWidth (by decide),
    Word.setWidth_setWidth (by decide)]
  rfl

theorem defect?_eq_none_iff : unit.defect? = none ↔
    unit.power.toNat ≤ 15 ∧ unit.energy.toNat ≤ 31 ∧ unit.time.toNat ≤ 15 := by
  unfold defect?
  grind

theorem truncated_eq_self_iff : unit.truncated = unit ↔ unit.defect? = none := by
  have power := Word.umod_eq_self_iff unit.power 16#8 (by decide)
  have energy := Word.umod_eq_self_iff unit.energy 32#8 (by decide)
  have time := Word.umod_eq_self_iff unit.time 16#8 (by decide)
  rw [defect?_eq_none_iff, truncated, PowerUnit.mk.injEq, power, energy, time]
  simp only [BitVec.toNat_ofNat]
  omega

theorem encode_decode (value : Word) : (decode value).encode = value &&& 0x000F1F0F#64 := by
  have fields : ∀ i : Fin 64, (0x000F1F0F#64 : Word).getLsbD i =
      decide (i.val < 4 ∨ 8 ≤ i.val ∧ i.val < 13 ∨ 16 ≤ i.val ∧ i.val < 20) := by decide
  apply BitVec.eq_of_getLsbD_eq
  intro i inside
  rw [getLsbD_encode, BitVec.getLsbD_and, fields ⟨i, inside⟩]
  simp only [decode, BitVec.getLsbD_setWidth, BitVec.getLsbD_extractLsb']
  grind

end PowerUnit

/-! ## Halves of a limit -/

namespace LimitHalf

/-- The half with each value reduced to the width of its field. -/
def truncated (half : LimitHalf) : LimitHalf :=
  { half with power := half.power % 0x8000#16, window := half.window % 0x80#8 }

theorem decode_congr {base : Nat} {value other : Word}
    (same : ∀ i, base ≤ i → i < base + 24 → value.getLsbD i = other.getLsbD i) :
    decode base value = decode base other := by
  have field : value.extractLsb' base 15 = other.extractLsb' base 15 := by
    apply BitVec.eq_of_getLsbD_eq
    intro i inside
    rw [BitVec.getLsbD_extractLsb', BitVec.getLsbD_extractLsb', same _ (by omega) (by omega)]
  exact decode_of_power field fun i _ below => same i (by omega) below

theorem getLsbD_encode (base : Nat) (half : LimitHalf) (i : Nat) : (half.encode base).getLsbD i =
    ((decide (i < 64 ∧ base ≤ i ∧ i < base + 15) && half.power.getLsbD (i - base)) ||
      (decide (i < 64 ∧ i = base + 15) && half.enabled) ||
      (decide (i < 64 ∧ i = base + 16) && half.clamped) ||
      (decide (i < 64 ∧ base + 17 ≤ i ∧ i < base + 24) &&
        half.window.getLsbD (i - (base + 17)))) := by
  unfold encode
  simp only [BitVec.getLsbD_or, Word.getLsbD_place, Word.getLsbD_placeBit, Nat.add_assoc]

theorem decode_encode (base : Nat) (fits : base + 24 ≤ 64) (half : LimitHalf) :
    decode base (half.encode base) = half.truncated := by
  have power : (half.encode base).extractLsb' base 15 = half.power.setWidth 15 := by
    apply Word.extractLsb'_of_bits
    intro i inside
    rw [getLsbD_encode]
    grind
  have window : (half.encode base).extractLsb' (base + 17) 7 = half.window.setWidth 7 := by
    apply Word.extractLsb'_of_bits
    intro i inside
    rw [getLsbD_encode]
    grind
  have enabled : (half.encode base).getLsbD (base + 15) = half.enabled := by
    rw [getLsbD_encode]
    grind
  have clamped : (half.encode base).getLsbD (base + 16) = half.clamped := by
    rw [getLsbD_encode]
    grind
  unfold decode truncated
  rw [power, window, enabled, clamped, Word.setWidth_setWidth (by decide),
    Word.setWidth_setWidth (by decide)]
  rfl

/-- A half gives back the bits of its fields and no others. -/
theorem getLsbD_encode_decode {base : Nat} (fits : base + 24 ≤ 64) (value : Word) (i : Nat) :
    ((decode base value).encode base).getLsbD i =
      (decide (base ≤ i ∧ i < base + 24) && value.getLsbD i) := by
  rw [getLsbD_encode]
  simp only [decode, BitVec.getLsbD_setWidth, BitVec.getLsbD_extractLsb']
  grind

theorem truncated_eq_self_iff {half : LimitHalf} : half.truncated = half ↔
    half.power.toNat ≤ 0x7FFF ∧ half.window.toNat ≤ 127 := by
  have power := Word.umod_eq_self_iff half.power 0x8000#16 (by decide)
  have window := Word.umod_eq_self_iff half.window 0x80#8 (by decide)
  rw [truncated, LimitHalf.mk.injEq, power, window]
  simp only [BitVec.toNat_ofNat, true_and]
  omega

theorem decode_bounded (base : Nat) (value : Word) :
    (decode base value).power.toNat ≤ 0x7FFF ∧ (decode base value).window.toNat ≤ 127 := by
  have power := (value.extractLsb' base 15).isLt
  have window := (value.extractLsb' (base + 17) 7).isLt
  simp only [decode, BitVec.toNat_setWidth]
  omega

end LimitHalf

/-! ## Limits -/

namespace PowerLimit

variable (limit : PowerLimit)

/-- The limit with each value reduced to the width of its field. -/
def truncated : PowerLimit :=
  { limit with first := limit.first.truncated, second := limit.second.truncated }

theorem decode_encode : decode limit.encode = limit.truncated := by
  have first : LimitHalf.decode 0 limit.encode = limit.first.truncated := by
    rw [← LimitHalf.decode_encode 0 (by decide)]
    apply LimitHalf.decode_congr
    intro i _ below
    simp only [encode, BitVec.getLsbD_or, LimitHalf.getLsbD_encode, Word.getLsbD_placeBit]
    grind
  have second : LimitHalf.decode 32 limit.encode = limit.second.truncated := by
    rw [← LimitHalf.decode_encode 32 (by decide)]
    apply LimitHalf.decode_congr
    intro i above below
    simp only [encode, BitVec.getLsbD_or, LimitHalf.getLsbD_encode, Word.getLsbD_placeBit]
    grind
  have locked : limit.encode.getLsbD 63 = limit.locked := by
    simp only [encode, BitVec.getLsbD_or, LimitHalf.getLsbD_encode, Word.getLsbD_placeBit]
    simp
  unfold decode truncated
  rw [first, second, locked]

theorem defect?_eq_none_iff : limit.defect? = none ↔
    limit.first.power.toNat ≤ 0x7FFF ∧ limit.first.window.toNat ≤ 127 ∧
      limit.second.power.toNat ≤ 0x7FFF ∧ limit.second.window.toNat ≤ 127 := by
  unfold defect? LimitUnits.largest
  grind

theorem truncated_eq_self_iff : limit.truncated = limit ↔ limit.defect? = none := by
  rw [defect?_eq_none_iff, truncated, PowerLimit.mk.injEq, LimitHalf.truncated_eq_self_iff,
    LimitHalf.truncated_eq_self_iff]
  simp only [and_true, and_assoc]

theorem defect?_decode (value : Word) : (decode value).defect? = none := by
  have first := LimitHalf.decode_bounded 0 value
  have second := LimitHalf.decode_bounded 32 value
  rw [defect?_eq_none_iff]
  exact ⟨first.1, first.2, second⟩

theorem encode_decode (value : Word) : (decode value).encode = value &&& 0x80FFFFFF00FFFFFF#64 := by
  have fields : ∀ i : Fin 64, (0x80FFFFFF00FFFFFF#64 : Word).getLsbD i =
      decide (i.val < 24 ∨ 32 ≤ i.val ∧ i.val < 56 ∨ i.val = 63) := by decide
  apply BitVec.eq_of_getLsbD_eq
  intro i inside
  rw [BitVec.getLsbD_and, fields ⟨i, inside⟩]
  simp only [encode, decode, BitVec.getLsbD_or, Word.getLsbD_placeBit]
  rw [LimitHalf.getLsbD_encode_decode (by decide), LimitHalf.getLsbD_encode_decode (by decide)]
  grind

end PowerLimit

/-! ## What is valid -/

theorem RegisterFile.powerUnit_eq (file : RegisterFile) (host : Host) :
    file.powerUnit host = (file.read host PowerUnit.register).map PowerUnit.decode := by
  unfold powerUnit
  cases file.read host PowerUnit.register with
  | error fault => rfl
  | ok raw => simp only [bind, Except.bind, PowerUnit.defect?_decode, Except.map]

/-- What is read from the unit register is always a unit. -/
theorem RegisterFile.powerUnit_ne_hardware (file : RegisterFile) (host : Host)
    (cause : HardwareFault) : file.powerUnit host ≠ .error (.hardware cause) := by
  intro failed
  rw [powerUnit_eq] at failed
  unfold RegisterFile.read at failed
  split at failed <;> cases failed

/-- Encoding keeps exactly what has no defect. Of anything else it reduces each value to the width
of its field, and no value changes another. Whatever a register holds is decoded without a defect,
so that no unit register is refused for what it holds, and encoding it again clears the bits
outside its fields and no others. -/
theorem encodable_iff_no_defect :
    (∀ limit : PowerLimit, (PowerLimit.decode limit.encode = limit ↔ limit.defect? = none) ∧
      PowerLimit.decode limit.encode = limit.truncated) ∧
    (∀ unit : PowerUnit, (PowerUnit.decode unit.encode = unit ↔ unit.defect? = none) ∧
      PowerUnit.decode unit.encode = unit.truncated) ∧
    (∀ value : Word, (PowerLimit.decode value).defect? = none ∧
      (PowerLimit.decode value).encode = value &&& 0x80FFFFFF00FFFFFF#64) ∧
    (∀ value : Word, (PowerUnit.decode value).defect? = none ∧
      (PowerUnit.decode value).encode = value &&& 0x000F1F0F#64) ∧
    ∀ (file : RegisterFile) (host : Host) (cause : HardwareFault),
      file.powerUnit host ≠ .error (.hardware cause) := by
  refine ⟨?_, ?_, ?_, ?_, RegisterFile.powerUnit_ne_hardware⟩
  · intro limit
    rw [limit.decode_encode]
    exact ⟨limit.truncated_eq_self_iff, rfl⟩
  · intro unit
    rw [unit.decode_encode]
    exact ⟨unit.truncated_eq_self_iff, rfl⟩
  · intro value
    exact ⟨PowerLimit.defect?_decode value, PowerLimit.encode_decode value⟩
  · intro value
    exact ⟨PowerUnit.defect?_decode value, PowerUnit.encode_decode value⟩

end PackagePower
