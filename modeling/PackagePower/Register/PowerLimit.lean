import PackagePower.Register.PowerUnit

/-!
# The package power limit register

The register holds a long-term limit in its lower half, a short-term limit in its upper half
and a lock at the top. A half is a power field of fifteen bits, an enable and a clamp bit, a
time window of seven bits and eight reserved ones, of which the upper half gives up its last
to the lock.

`decode` and `encode` lose the reserved bits, so limits are changed with `withLimits`, which
touches the two power fields and nothing else.
-/

namespace PackagePower

-- Powers of whole numbers are core's, whatever else is imported.
attribute [local instance (1100)] instPowNat

/-- One half of a power limit. Wider values than the register holds can be written down. -/
structure LimitHalf where
  power : BitVec 16
  enabled : Bool
  clamped : Bool
  window : BitVec 8
  deriving DecidableEq

namespace LimitHalf

/-- The half that starts at bit `base`. -/
def decode (base : Nat) (value : Word) : LimitHalf where
  power := (value.extractLsb' base 15).setWidth 16
  enabled := value.getLsbD (base + 15)
  clamped := value.getLsbD (base + 16)
  window := (value.extractLsb' (base + 17) 7).setWidth 8

def encode (base : Nat) (half : LimitHalf) : Word :=
  Word.place base 15 half.power ||| Word.placeBit (base + 15) half.enabled |||
    Word.placeBit (base + 16) half.clamped ||| Word.place (base + 17) 7 half.window

/-- Length of the time window: with `y` its low five bits and `z` the two above,
`2 ^ y * (1 + z / 4)` units of time. -/
def windowSeconds (window : BitVec 8) (unit : PowerUnit) : Binary64 :=
  let y := (window.extractLsb' 0 5).toNat
  let z := (window.extractLsb' 5 2).toNat
  .ofRatio false ((4 + z) * 2 ^ y) (4 * 2 ^ unit.time.toNat)

end LimitHalf

/-- The long-term limit, the short-term limit and the lock. -/
structure PowerLimit where
  first : LimitHalf
  second : LimitHalf
  locked : Bool
  deriving DecidableEq

inductive LimitIndex where
  | first
  | second
  deriving DecidableEq

/-- A value that its field cannot hold. -/
inductive PowerLimit.Defect where
  | power (index : LimitIndex)
  | window (index : LimitIndex)
  deriving DecidableEq

def LimitIndex.number : LimitIndex → Nat
  | .first => 1
  | .second => 2

def PowerLimit.Defect.message : PowerLimit.Defect → String
  | .power index => s!"Power limit {Text.decimal index.number} must be <= 0x7FFF (15 bits)"
  | .window index => s!"Time window {Text.decimal index.number} must be <= 127 (7 bits)"

namespace PowerLimit

def register : Nat := 0x610

def decode (value : Word) : PowerLimit where
  first := .decode 0 value
  second := .decode 32 value
  locked := value.getLsbD 63

def encode (limit : PowerLimit) : Word :=
  limit.first.encode 0 ||| limit.second.encode 32 ||| Word.placeBit 63 limit.locked

/-- The first field too wide, long-term half before short-term. -/
def defect? (limit : PowerLimit) : Option Defect :=
  if LimitUnits.largest < limit.first.power.toNat then some (.power .first)
  else if 127 < limit.first.window.toNat then some (.window .first)
  else if LimitUnits.largest < limit.second.power.toNat then some (.power .second)
  else if 127 < limit.second.window.toNat then some (.window .second)
  else none

end PowerLimit

namespace Word

/-- The bits of the two power fields. -/
def powerFields : Word := 0x7FFF#64 ||| 0x7FFF#64 <<< 32

/-- `current` with both power fields replaced. -/
def withLimits (current : Word) (first second : LimitUnits) : Word :=
  (current &&& ~~~powerFields) ||| BitVec.ofNat 64 first.count |||
    BitVec.ofNat 64 second.count <<< 32

def limitCounts (value : Word) : Nat × Nat :=
  ((value.extractLsb' 0 15).toNat, (value.extractLsb' 32 15).toNat)

theorem getLsbD_powerFields (i : Nat) :
    powerFields.getLsbD i = (decide (i < 15) || decide (32 ≤ i ∧ i < 47)) := by
  by_cases inside : i < 64
  · have each : ∀ j : Fin 64, powerFields.getLsbD j.val
        = (decide (j.val < 15) || decide (32 ≤ j.val ∧ j.val < 47)) := by decide
    exact each ⟨i, inside⟩
  · rw [BitVec.getLsbD_of_ge _ _ (by omega)]
    simp; omega

private theorem testBit_count (units : LimitUnits) {i : Nat} (above : 15 ≤ i) :
    units.count.testBit i = false := by
  apply Nat.testBit_lt_two_pow
  have : units.count < 2 ^ 15 := by have := units.bounded; unfold LimitUnits.largest at this; omega
  exact Nat.lt_of_lt_of_le this (Nat.pow_le_pow_right (by decide) above)

/-- No bit outside the power fields changes. -/
theorem getLsbD_withLimits_of_outside (current : Word) (first second : LimitUnits) {i : Nat}
    (outside : powerFields.getLsbD i = false) :
    (current.withLimits first second).getLsbD i = current.getLsbD i := by
  by_cases inside : i < 64
  · have place := outside
    rw [getLsbD_powerFields] at place
    simp only [Bool.or_eq_false_iff, decide_eq_false_iff_not] at place
    have low : first.count.testBit i = false := testBit_count first (by omega)
    have high : i < 32 ∨ second.count.testBit (i - 32) = false := by
      by_cases h : i < 32
      · exact .inl h
      · exact .inr (testBit_count second (by omega))
    rcases high with h | h <;>
      simp only [withLimits, BitVec.getLsbD_or, BitVec.getLsbD_and, BitVec.getLsbD_not,
        BitVec.getLsbD_shiftLeft, BitVec.getLsbD_ofNat, outside, low, h, inside] <;> simp
  · simp [BitVec.getLsbD_of_ge _ i (Nat.le_of_not_lt inside)]

end Word
end PackagePower
