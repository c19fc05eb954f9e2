import PackagePower.Device.Window
import PackagePower.Program.Basic
import PackagePower.Report

/-!
# Looking through the window

`scan` finds every register of the window that holds a given pair of limits, `survey` does so as
a process, and `dump` lists the registers that are commonly there. None of them writes anything.
-/

namespace PackagePower

structure ScanTarget where
  first : LimitUnits
  second : LimitUnits
  deriving DecidableEq

/-- Whether both limits must be enabled to match. -/
inductive MatchMode where
  | enabled
  | any
  deriving DecidableEq

structure ScanMatch where
  offset : Nat
  value : Word
  deriving DecidableEq

namespace ScanTarget

def ofCounts (first second : Nat) : Except RangeError ScanTarget := do
  let first ← LimitUnits.ofCount first
  let second ← LimitUnits.ofCount second
  .ok { first, second }

def ofWatts (unit : PowerUnit) (first second : Binary64) : Except RangeError ScanTarget := do
  let first ← unit.limitUnits first
  let second ← unit.limitUnits second
  .ok { first, second }

def isMatch (target : ScanTarget) (mode : MatchMode) (value : Word) : Bool :=
  let limit := PowerLimit.decode value
  limit.first.power.toNat = target.first.count && limit.second.power.toNat = target.second.count &&
    (mode = .any || (limit.first.enabled && limit.second.enabled))

end ScanTarget

namespace Window

def scanStride : Nat := 8

/-- Reads the register at `offset` and keeps it if it matches. -/
def probe (window : Window) (host : Host) (target : ScanTarget) (mode : MatchMode)
    (offset : Nat) : Except Fault (Option ScanMatch) := do
  let value ← window.read host offset
  .ok (if target.isMatch mode value then some { offset, value } else none)

/-- The registers that match, in ascending order. -/
def scan (window : Window) (host : Host) (target : ScanTarget) (mode : MatchMode) :
    Except Fault (List ScanMatch) := do
  let offsets := (List.range (window.size / scanStride)).map (· * scanStride)
  let probed ← offsets.mapM (window.probe host target mode)
  .ok (probed.filterMap id)

/-- A scan by a process, which a page that is not there ends. -/
def survey (window : Window) (host : Host) (target : ScanTarget) (mode : MatchMode) :
    Except Fault (List ScanMatch) :=
  if (List.range (window.size / scanStride)).any fun slot => window.lacks host (slot * scanStride)
  then .error .noPage
  else window.scan host target mode

/-- What stands behind a register's value where the units are known. -/
def decoded (unit : PowerUnit) (register : PackageRegister) (value : Word) : String :=
  match register with
  | .powerLimit =>
    let (first, second) := value.limitCounts
    s!"  PL1={(unit.watts first).fixed 3}W PL2={(unit.watts second).fixed 3}W"
  | .energyStatus =>
    -- The counter has the lower half and wraps.
    s!"  energy={(unit.joules value.low.toNat).fixed 3}J"
  | _ => ""

/-- Lists one register. -/
def showRegister (window : Window) (host : Host) (unit : Option PowerUnit)
    (register : PackageRegister) : Attempt Unit := do
  let value ← Attempt.ofExcept (window.load host register.offset)
  let shown := (unit.map fun unit => decoded unit register value).getD ""
  Program.say <|
    s!"{padRight 28 register.name} off=0x{Text.upperHex 4 register.offset} val={value.text}" ++
      shown

/-- Lists the registers commonly in the window. -/
def dump (window : Window) (host : Host) (unit : Option PowerUnit) : Attempt Unit := do
  Program.say s!"MCHBAR @ {window.base.text}"
  PackageRegister.all.forM (window.showRegister host unit)

end Window
end PackagePower
