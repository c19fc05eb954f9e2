import PackagePower.Binary64.Arithmetic
import PackagePower.Register.LimitUnits
import PackagePower.Register.Word

/-!
# The unit register

One unit of power is `2 ^ -power` watts, and likewise for energy and time. The three
exponents come from one register: four bits of power, five of energy, four of time.

Watts become the whole number nearest to their quotient by the unit, upwards from a half. A
number that no field accepts is refused while it is still a binary64 number, never clamped.
-/

namespace PackagePower

-- Powers of whole numbers are core's, whatever else is imported.
attribute [local instance (1100)] instPowNat

/-- Exponents of the units of power, energy and time. Wider values than the register holds
can be written down, and `defect?` names them. -/
structure PowerUnit where
  power : BitVec 8
  energy : BitVec 8
  time : BitVec 8
  deriving DecidableEq

/-- An exponent that its field cannot hold. -/
inductive PowerUnit.Defect where
  | power
  | energy
  | time
  deriving DecidableEq

def PowerUnit.Defect.message : PowerUnit.Defect → String
  | .power => "Power units must be <= 15 (4 bits)"
  | .energy => "Energy units must be <= 31 (5 bits)"
  | .time => "Time units must be <= 15 (4 bits)"

namespace PowerUnit

def register : Nat := 0x606

def decode (value : Word) : PowerUnit where
  power := (value.extractLsb' 0 4).setWidth 8
  energy := (value.extractLsb' 8 5).setWidth 8
  time := (value.extractLsb' 16 4).setWidth 8

def encode (unit : PowerUnit) : Word :=
  Word.place 0 4 unit.power ||| Word.place 8 5 unit.energy ||| Word.place 16 4 unit.time

/-- The first exponent too wide for its field. -/
def defect? (unit : PowerUnit) : Option Defect :=
  if 15 < unit.power.toNat then some .power
  else if 31 < unit.energy.toNat then some .energy
  else if 15 < unit.time.toNat then some .time
  else none

/-- The register has no exponent that its field cannot hold. -/
theorem defect?_decode (value : Word) : (decode value).defect? = none := by
  have power := (value.extractLsb' 0 4).isLt
  have energy := (value.extractLsb' 8 5).isLt
  have time := (value.extractLsb' 16 4).isLt
  unfold defect? decode
  simp only [BitVec.toNat_setWidth]
  rw [if_neg (by omega), if_neg (by omega), if_neg (by omega)]

/-- An eighth of a watt, the scale assumed where the register cannot be read. -/
def eighthWatt : PowerUnit := ⟨3, 14, 10⟩

/-- A unit with the given power exponent and the customary others. -/
def ofExponent (exponent : BitVec 8) : Except RangeError PowerUnit :=
  if 15 < exponent.toNat then .error (.exponent exponent.toNat)
  else .ok { eighthWatt with power := exponent }

/-- `2 ^ -exponent`. -/
def step (exponent : BitVec 8) : Binary64 := .ofRatio false 1 (2 ^ exponent.toNat)

def wattsPerUnit (unit : PowerUnit) : Binary64 := step unit.power

def joulesPerUnit (unit : PowerUnit) : Binary64 := step unit.energy

def secondsPerUnit (unit : PowerUnit) : Binary64 := step unit.time

/-- Watts that `count` units stand for. -/
def watts (unit : PowerUnit) (count : Nat) : Binary64 := .ofRatio false count (2 ^ unit.power.toNat)

/-- Joules that `count` units stand for. -/
def joules (unit : PowerUnit) (count : Nat) : Binary64 :=
  .ofRatio false count (2 ^ unit.energy.toNat)

/-- The largest count an error reports; a larger one is reported as this. -/
def reportedMax : Nat := UInt64.size - 1

/-- The units nearest to `watts`. -/
def limitUnits (unit : PowerUnit) (watts : Binary64) : Except RangeError LimitUnits :=
  match watts.positive? with
  | none => .error (.notPositive watts)
  | some _ =>
    let units := (watts.quotient unit.wattsPerUnit).round
    if units.lt (.ofNat 1) || (Binary64.ofNat LimitUnits.largest).lt units then
      .error (.watts watts (units.clampTo reportedMax) unit.wattsPerUnit)
    else LimitUnits.ofCount (units.clampTo (UInt16.size - 1))

end PowerUnit
end PackagePower
