import PackagePower.CommandLine.Options
import PackagePower.CommandLine.Plan
import PackagePower.Scan

/-!
# The window scanner

Looks for a register that holds a pair of limits, given in watts or in units. Units as such
need no unit register; where it cannot be read they are looked for all the same.
-/

namespace PackagePower.CommandLine

structure WindowScanner where
  /-- Watts looked for, where given. -/
  first : Option Binary64
  second : Option Binary64
  /-- All counts given with the option for units. -/
  units : Option (List Nat)
  mode : MatchMode
  verbose : Bool

namespace WindowScanner

def name : String := "mchbar-scan"

inductive Id where
  | first
  | second
  | units
  | any
  | verbose
  | help
  deriving DecidableEq

def specs : List (OptionSpec Id) :=
  [{ id := .first, long := "pl1", arity := .values 1 false },
    { id := .second, long := "pl2", arity := .values 1 false },
    { id := .units, long := "units", arity := .values 2 false, repeatable := true },
    { id := .any, long := "any" },
    { id := .verbose, long := "verbose", short := some 'v' },
    { id := .help, long := "help" }]

/-- The watts looked for unless others are given. -/
def usualFirst : Binary64 := .ofNat 55

def usualSecond : Binary64 := .ofNat 157

def parse (arguments : List String) : Option WindowScanner := do
  let given ← CommandLine.parse specs arguments
  let first ← valueOf given .first Quantity.watts
  let second ← valueOf given .second Quantity.watts
  let counts ← (valuesOf given .units).mapM fun text => (Quantity.units text).toOption
  let units := if isGiven given .units then some counts else none
  if isGiven given .help || (units.isSome && (first.isSome || second.isSome)) then none
  else
    some { first, second, units, mode := if isGiven given .any then .any else .enabled,
           verbose := isGiven given .verbose }

def unit (options : WindowScanner) (host : Host) (layout : Layout) : Except Fault PowerUnit :=
  match options.units, hardwareUnit host layout with
  | some _, .error _ => .ok .eighthWatt
  | _, unit => unit

/-- The pair looked for, and how it is described. -/
def target (options : WindowScanner) (unit : PowerUnit) : Except Fault (ScanTarget × String) := do
  match options.units with
  | some counts =>
    let first := counts.getD 0 0
    let second := counts.getD 1 0
    let target ← inRange (ScanTarget.ofCounts first second)
    .ok (target, s!"units PL1=0x{Text.upperHex 1 first} PL2=0x{Text.upperHex 1 second}")
  | none =>
    let first := options.first.getD usualFirst
    let second := options.second.getD usualSecond
    let target ← inRange (ScanTarget.ofWatts unit first second)
    .ok (target,
      s!"PL1={first.fixed 3}W PL2={second.fixed 3}W " ++
        s!"(units 0x{target.first.hex}/0x{target.second.hex}, unit={unit.wattsPerUnit.fixed 6}W)")

def matchLine (found : ScanMatch) : String :=
  s!"match off=0x{Text.upperHex 5 found.offset} val={found.value.text} " ++
    s!"lo=0x{Text.upperHex 8 found.value.low.toNat} hi=0x{Text.upperHex 8 found.value.high.toNat}"

/-- Everything that a scan prints below its heading. -/
def resultLines (found : List ScanMatch) : List String :=
  if found.isEmpty then ["No matches found."] else found.map matchLine

def heading (window : Window) (description : String) (mode : MatchMode) : String :=
  s!"Scanning MCHBAR @ {window.base.text} for {description} " ++
    s!"(require_enable={flag (mode = .enabled)})"

def prepare (options : WindowScanner) (host : Host) (layout : Layout) : Except Fault Prepared := do
  let unit ← options.unit host layout
  let (target, description) ← options.target unit
  let window ← openWindow host layout .readOnly
  let program : Attempt Unit := do
    Program.say (heading window description options.mode)
    let found ← Attempt.ofExcept (window.survey host target options.mode)
    Program.print .out (joinLines (resultLines found)) [] (.done (.ok ()))
  .ok { station := window.station layout.limitOffset (.ofLayout layout), plan := .single program }

end WindowScanner
end PackagePower.CommandLine
