import PackagePower.Register.PowerLimit

/-!
# The two power fields

New limits fill the two power fields and leave every other bit as it was. A word is its two power
fields and the bits beside them, so that setting limits is getting them back, setting them again
counts alone, and setting those that are there changes nothing.
-/

namespace PackagePower

namespace LimitHalf

/-- A half that differs in its power field only. -/
theorem decode_of_power {base : Nat} {value other : Word} {power : BitVec 15}
    (field : value.extractLsb' base 15 = power)
    (beside : ∀ i, base + 15 ≤ i → i < base + 24 → value.getLsbD i = other.getLsbD i) :
    decode base value = { decode base other with power := power.setWidth 16 } := by
  have window : value.extractLsb' (base + 17) 7 = other.extractLsb' (base + 17) 7 := by
    apply BitVec.eq_of_getLsbD_eq
    intro i inside
    rw [BitVec.getLsbD_extractLsb', BitVec.getLsbD_extractLsb',
      beside _ (by omega) (by omega)]
  unfold decode
  rw [field, window, beside _ (by omega) (by omega), beside _ (by omega) (by omega)]

end LimitHalf

namespace Word

-- Powers of whole numbers are core's, whatever else is imported.
attribute [local instance (1100)] instPowNat

theorem count_lt (units : LimitUnits) : units.count < 2 ^ (15 : Nat) := by
  have bounded := units.bounded
  unfold LimitUnits.largest at bounded
  omega

theorem powerFields_of_outside {i : Nat} (outside : 14 < i ∧ i < 32 ∨ 46 < i) :
    powerFields.getLsbD i = false := by
  rw [getLsbD_powerFields]
  simp only [Bool.or_eq_false_iff, decide_eq_false_iff_not]
  omega

theorem withLimits_low (current : Word) (first second : LimitUnits) :
    (current.withLimits first second).extractLsb' 0 15 = BitVec.ofNat 15 first.count := by
  apply BitVec.eq_of_getLsbD_eq
  intro i below
  have field : powerFields.getLsbD i = true := by
    rw [getLsbD_powerFields]
    simp [below]
  have inside : i < 64 := by omega
  have under : i < 32 := by omega
  simp only [BitVec.getLsbD_extractLsb', withLimits, BitVec.getLsbD_or, BitVec.getLsbD_and,
    BitVec.getLsbD_not, BitVec.getLsbD_shiftLeft, BitVec.getLsbD_ofNat, Nat.zero_add, field, below,
    inside, under]
  simp

theorem withLimits_high (current : Word) (first second : LimitUnits) :
    (current.withLimits first second).extractLsb' 32 15 = BitVec.ofNat 15 second.count := by
  apply BitVec.eq_of_getLsbD_eq
  intro i below
  have field : powerFields.getLsbD (32 + i) = true := by
    rw [getLsbD_powerFields]
    simp only [Bool.or_eq_true, decide_eq_true_eq]
    omega
  have above : first.count.testBit (32 + i) = false := by
    apply Nat.testBit_lt_two_pow
    exact Nat.lt_of_lt_of_le (count_lt first) (Nat.pow_le_pow_right (by decide) (by omega))
  have inside : 32 + i < 64 := by omega
  have small : i < 64 := by omega
  simp only [BitVec.getLsbD_extractLsb', withLimits, BitVec.getLsbD_or, BitVec.getLsbD_and,
    BitVec.getLsbD_not, BitVec.getLsbD_shiftLeft, BitVec.getLsbD_ofNat, field, below, inside, above,
    Nat.add_sub_cancel_left]
  simp [small]

/-- The fields of a word with new limits are those limits. -/
theorem limitCounts_withLimits (current : Word) (first second : LimitUnits) :
    (current.withLimits first second).limitCounts = (first.count, second.count) := by
  unfold limitCounts
  rw [withLimits_low, withLimits_high, BitVec.toNat_ofNat, BitVec.toNat_ofNat,
    Nat.mod_eq_of_lt (count_lt first), Nat.mod_eq_of_lt (count_lt second)]

/-- The power fields are decoded as they are counted. -/
theorem limitCounts_eq_decode (value : Word) : value.limitCounts =
    ((PowerLimit.decode value).first.power.toNat,
      (PowerLimit.decode value).second.power.toNat) := by
  have low := (value.extractLsb' 0 15).isLt
  have high := (value.extractLsb' 32 15).isLt
  simp only [PowerLimit.decode, LimitHalf.decode, limitCounts, BitVec.toNat_setWidth]
  rw [Nat.mod_eq_of_lt (by omega), Nat.mod_eq_of_lt (by omega)]

theorem getLsbD_beside {value : Word} {first second : LimitUnits} {i : Nat}
    (outside : 14 < i ∧ i < 32 ∨ 46 < i) :
    (value.withLimits first second).getLsbD i = value.getLsbD i :=
  getLsbD_withLimits_of_outside value first second (powerFields_of_outside outside)

/-- Words with the same power fields and the same bits beside them are the same. -/
theorem eq_of_fields {value other : Word} (fields : value.limitCounts = other.limitCounts)
    (beside : ∀ i, 14 < i ∧ i < 32 ∨ 46 < i → value.getLsbD i = other.getLsbD i) :
    value = other := by
  have low : value.extractLsb' 0 15 = other.extractLsb' 0 15 :=
    BitVec.eq_of_toNat_eq (congrArg Prod.fst fields)
  have high : value.extractLsb' 32 15 = other.extractLsb' 32 15 :=
    BitVec.eq_of_toNat_eq (congrArg Prod.snd fields)
  apply BitVec.eq_of_getLsbD_eq
  intro i _
  by_cases lower : i < 15
  · have bit := congrArg (BitVec.getLsbD · i) low
    simpa [BitVec.getLsbD_extractLsb', lower] using bit
  by_cases upper : 32 ≤ i ∧ i < 47
  · have bit := congrArg (BitVec.getLsbD · (i - 32)) high
    have inside : i - 32 < 15 := by omega
    have place : 32 + (i - 32) = i := by omega
    simpa [BitVec.getLsbD_extractLsb', inside, place] using bit
  · exact beside i (by omega)

/-! ## Setting and getting limits -/

variable {value : Word} {first second : LimitUnits}

theorem decode_withLimits : PowerLimit.decode (value.withLimits first second) =
    { PowerLimit.decode value with
      first.power := .ofNat 16 first.count
      second.power := .ofNat 16 second.count } := by
  have widen (units : LimitUnits) : (BitVec.ofNat 15 units.count).setWidth 16 =
      BitVec.ofNat 16 units.count := by
    apply BitVec.eq_of_toNat_eq
    have := count_lt units
    simp only [BitVec.toNat_setWidth, BitVec.toNat_ofNat]
    omega
  have lower : LimitHalf.decode 0 (value.withLimits first second) =
      { LimitHalf.decode 0 value with power := .ofNat 16 first.count } := by
    rw [LimitHalf.decode_of_power (withLimits_low value first second)
      fun i _ _ => getLsbD_beside (by omega), widen]
  have upper : LimitHalf.decode 32 (value.withLimits first second) =
      { LimitHalf.decode 32 value with power := .ofNat 16 second.count } := by
    rw [LimitHalf.decode_of_power (withLimits_high value first second)
      fun i _ _ => getLsbD_beside (by omega), widen]
  unfold PowerLimit.decode
  rw [lower, upper, getLsbD_beside (by omega)]

/-- Of limits set twice the second remain. -/
theorem withLimits_withLimits (third fourth : LimitUnits) :
    (value.withLimits first second).withLimits third fourth = value.withLimits third fourth := by
  apply eq_of_fields
  · rw [limitCounts_withLimits, limitCounts_withLimits]
  · intro i outside
    rw [getLsbD_beside outside, getLsbD_beside outside, getLsbD_beside outside]

theorem withLimits_of_counts (same : value.limitCounts = (first.count, second.count)) :
    value.withLimits first second = value := by
  apply eq_of_fields
  · rw [limitCounts_withLimits, same]
  · intro i outside
    exact getLsbD_beside outside

/-- Every field but zero is a limit that can be set. -/
theorem limits_of_nonzero (first : value.limitCounts.1 ≠ 0) (second : value.limitCounts.2 ≠ 0) :
    ∃ limit₁ limit₂, LimitUnits.ofCount value.limitCounts.1 = .ok limit₁ ∧
      LimitUnits.ofCount value.limitCounts.2 = .ok limit₂ := by
  have low := (value.extractLsb' 0 15).isLt
  have high := (value.extractLsb' 32 15).isLt
  have small : value.limitCounts.1 ≤ LimitUnits.largest := Nat.le_of_lt_succ low
  have small' : value.limitCounts.2 ≤ LimitUnits.largest := Nat.le_of_lt_succ high
  exact ⟨⟨_, Nat.pos_of_ne_zero first, small⟩, ⟨_, Nat.pos_of_ne_zero second, small'⟩,
    LimitUnits.ofCount_eq_ok_iff.2 rfl, LimitUnits.ofCount_eq_ok_iff.2 rfl⟩

/-- Setting limits is a lens onto the two power fields. What is decoded afterwards has the new
limits and is otherwise as before, counting the fields gives what decoding gives, no other bit
changes, of limits set twice the second remain, and setting those that are there changes nothing. -/
theorem limits_are_a_lens (value : Word) (first second : LimitUnits) :
    PowerLimit.decode (value.withLimits first second) =
        { PowerLimit.decode value with
          first.power := .ofNat 16 first.count
          second.power := .ofNat 16 second.count } ∧
      (value.withLimits first second).limitCounts = (first.count, second.count) ∧
      value.limitCounts = ((PowerLimit.decode value).first.power.toNat,
        (PowerLimit.decode value).second.power.toNat) ∧
      (∀ i, 14 < i ∧ i < 32 ∨ 46 < i →
        (value.withLimits first second).getLsbD i = value.getLsbD i) ∧
      (∀ third fourth, (value.withLimits first second).withLimits third fourth =
        value.withLimits third fourth) ∧
      (value.limitCounts.1 ≠ 0 → value.limitCounts.2 ≠ 0 →
        ∃ limit₁ limit₂, LimitUnits.ofCount value.limitCounts.1 = .ok limit₁ ∧
          LimitUnits.ofCount value.limitCounts.2 = .ok limit₂ ∧
          value.withLimits limit₁ limit₂ = value) := by
  refine ⟨decode_withLimits, limitCounts_withLimits value first second,
    limitCounts_eq_decode value, ?_, withLimits_withLimits, ?_⟩
  · intro i outside
    exact getLsbD_beside outside
  · intro nonzero nonzero'
    obtain ⟨limit₁, limit₂, found₁, found₂⟩ := limits_of_nonzero nonzero nonzero'
    have counts : value.limitCounts = (limit₁.count, limit₂.count) :=
      Prod.ext (LimitUnits.ofCount_eq_ok_iff.1 found₁).symm
        (LimitUnits.ofCount_eq_ok_iff.1 found₂).symm
    exact ⟨limit₁, limit₂, found₁, found₂, withLimits_of_counts counts⟩

end Word
end PackagePower
