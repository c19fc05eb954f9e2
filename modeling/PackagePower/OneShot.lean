import PackagePower.Program.Basic
import PackagePower.Report

/-!
# Setting or restoring the window's copy in one go

The value found is printed first, with the command that restores it, and then what is to be
written; only then is anything written. What the register holds afterwards is printed and,
should it differ, warned about.
-/

namespace PackagePower

/-- What to make of the register. -/
inductive OneShot where
  | set (first second : Binary64)
  | restore (value : Word)
  deriving DecidableEq

namespace OneShot

/-- The most watts that either limit may be set to. -/
def mostWatts : Binary64 := .ofNat 500

/-- The units of a limit in watts. -/
def limitOf (unit : PowerUnit) (watts : Binary64) : Except RangeError LimitUnits := do
  unit.limitUnits (← checkWatts mostWatts watts)

/-- The value to write over `current`. -/
def target (order : OneShot) (current : Word) (unit : PowerUnit) : Except RangeError Word :=
  match order with
  | .set watts₁ watts₂ => do
    let first ← limitOf unit watts₁
    let second ← limitOf unit watts₂
    .ok (current.withLimits first second)
  | .restore value => .ok value

/-- The lines that say what is going to be written. -/
def announcement (order : OneShot) (target : Word) (unit : PowerUnit) : List String :=
  match order with
  | .set watts₁ watts₂ =>
    let (first, second) := target.limitCounts
    [s!"SET  PL1={watts₁.shortest}W (0x{Text.upperHex 1 first})  " ++
        s!"PL2={watts₂.shortest}W (0x{Text.upperHex 1 second}) " ++
        s!"at {unit.wattsPerUnit.shortest} W/unit",
      s!"NEW  lo32=0x{Text.lowerHex 8 target.low.toNat} hi32=0x{Text.lowerHex 8 target.high.toNat}"]
  | .restore _ => [s!"RESTORE target = {target.text}"]

/-- Carries out an order on the window's copy, which lives at `place`. `command` is what the
operator calls this by. The result is the value read back. -/
def run (order : OneShot) (unit : PowerUnit) (place command : String) : Attempt Word := do
  let found ← Attempt.read .mmio
  Program.say s!"ORIG  [{place}] = {found.text}"
  Program.say "Restore command:"
  Program.say s!"  sudo {command} --restore {found.text}"
  let target ← Attempt.ofExcept (inRange (order.target found unit))
  Program.sayAll (order.announcement target unit)
  Attempt.write .mmio target
  let after ← Attempt.read .mmio
  Program.say s!"AFTER [{place}] = {after.text}"
  if after ≠ target then
    Program.act (.warn s!"{place} reads back {after.text}, expected {target.text}")
  pure after

/-- The units to use and what is to be warned about. An eighth of a watt stands in where the
hardware's units are not to be used or could not be read. -/
def resolveUnit (hardware : Except Fault PowerUnit) (fixedScale : Bool) :
    PowerUnit × List String :=
  let fixed :=
    "Using the deprecated fixed 1/8 W scale; written limits may be wrong on this CPU"
  match hardware with
  | .error fault => (.eighthWatt, [s!"Cannot read the RAPL power unit: {fault.message}", fixed])
  | .ok unit =>
    if fixedScale = false then (unit, [])
    else if unit = .eighthWatt then (.eighthWatt, [fixed])
    else
      (.eighthWatt,
        [s!"--fixed-scale overrides the hardware unit of {unit.wattsPerUnit.shortest} W with 0.125 W",
          fixed])

end OneShot
end PackagePower
