import PackagePower.Binary64.Shortest

/-!
# Power limits in register units

A power field has fifteen bits and zero is no limit, so a count of units is between 1 and
0x7FFF. Only `LimitUnits` reach the register, hence no count can spill into the bits beside
its field.
-/

namespace PackagePower

inductive RangeError where
  /-- A count of units no field accepts. -/
  | units (count : Nat)
  /-- Watts whose count, at `perUnit` watts for one unit, no field accepts. -/
  | watts (given : Binary64) (count : Nat) (perUnit : Binary64)
  | notPositive (given : Binary64)
  | aboveLimit (given limit : Binary64)
  /-- A power exponent wider than its four bits. -/
  | exponent (given : Nat)
  deriving DecidableEq

def RangeError.message : RangeError → String
  | .units count =>
    s!"power limit of {Text.decimal count} units (0x{Text.upperHex 1 count}) is outside [1, 0x7FFF]"
  | .watts given count perUnit =>
    s!"{given.shortest} W converts to {Text.decimal count} units (0x{Text.upperHex 1 count}) " ++
      s!"at {perUnit.shortest} W/unit, outside [1, 0x7FFF]"
  | .notPositive given => s!"power must be a positive number of watts, got {given.shortest}"
  | .aboveLimit given limit => s!"{given.shortest} W exceeds the {limit.shortest} W safety limit"
  | .exponent given => s!"power unit exponent {Text.decimal given} is outside [0, 15]"

/-- The largest count of a power field. -/
def LimitUnits.largest : Nat := 0x7FFF

/-- A count of power units that a field holds. -/
structure LimitUnits where
  count : Nat
  positive : 1 ≤ count
  bounded : count ≤ LimitUnits.largest
  deriving DecidableEq

namespace LimitUnits

def ofCount (count : Nat) : Except RangeError LimitUnits :=
  if h : 1 ≤ count ∧ count ≤ largest then .ok ⟨count, h.1, h.2⟩ else .error (.units count)

theorem ofCount_eq_ok_iff {count : Nat} {units : LimitUnits} :
    ofCount count = .ok units ↔ units.count = count := by
  unfold ofCount
  split
  · rename_i h
    cases units
    simp [eq_comm]
  · rename_i h
    have := units.positive
    have := units.bounded
    simp only [reduceCtorEq, false_iff]
    rintro rfl
    omega

/-- Hexadecimal digits of the count, upper case. -/
def hex (units : LimitUnits) : String := Text.upperHex 1 units.count

/-- The count in base ten and base sixteen. -/
def text (units : LimitUnits) : String := s!"{Text.decimal units.count} (0x{units.hex})"

end LimitUnits

/-- `watts` if it is positive and at most `limit`. -/
def checkWatts (limit watts : Binary64) : Except RangeError Binary64 :=
  match watts.positive? with
  | none => .error (.notPositive watts)
  | some _ => if limit.lt watts then .error (.aboveLimit watts limit) else .ok watts

end PackagePower
