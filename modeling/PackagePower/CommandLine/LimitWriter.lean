import PackagePower.CommandLine.Options
import PackagePower.CommandLine.Plan
import PackagePower.OneShot

/-!
# The limit writer

Sets the window's copy of the limits in watts or restores it as a whole. Exactly one of the
two has to be asked for.
-/

namespace PackagePower.CommandLine

structure LimitWriter where
  order : OneShot
  fixedScale : Bool
  offset : Option Nat
  verbose : Bool

namespace LimitWriter

def name : String := "mchbar-pl-write"

inductive Id where
  | set
  | restore
  | fixedScale
  | offset
  | verbose
  | help
  deriving DecidableEq

def specs : List (OptionSpec Id) :=
  [{ id := .set, long := "set", arity := .values 2 true, repeatable := true },
    { id := .restore, long := "restore", arity := .values 1 false },
    { id := .fixedScale, long := "fixed-scale" },
    { id := .offset, long := "offset", arity := .values 1 false },
    { id := .verbose, long := "verbose", short := some 'v' },
    { id := .help, long := "help" }]

/-- The order that a pair of watts and a value to restore amount to. -/
def orderOf : List Binary64 → Option Word → Option OneShot
  | first :: second :: _, none => some (.set first second)
  | [], some value => some (.restore value)
  | _, _ => none

def parse (arguments : List String) : Option LimitWriter := do
  let given ← CommandLine.parse specs arguments
  let watts ← (valuesOf given .set).mapM Binary64.ofText?
  let value ← valueOf given .restore Quantity.word
  let offset ← valueOf given .offset Quantity.offset
  let order ← orderOf watts value
  if isGiven given .help then none
  else
    some { order, fixedScale := isGiven given .fixedScale, offset,
           verbose := isGiven given .verbose }

/-- The units to use, and warnings. A value restored as a whole needs none. -/
def unit (options : LimitWriter) (host : Host) (layout : Layout) : PowerUnit × List String :=
  match options.order with
  | .set _ _ => OneShot.resolveUnit (hardwareUnit host layout) options.fixedScale
  | .restore _ => (.eighthWatt, [])

/-- Opens the window and plans the write. `command` is what the tool was called by. -/
def prepare (options : LimitWriter) (host : Host) (layout : Layout) (command : String) :
    List String × Except Fault Prepared :=
  let layout := { layout with limitOffset := options.offset.getD layout.limitOffset }
  let (unit, warnings) := options.unit host layout
  let prepared := do
    let window ← openWindow host layout .readWrite
    let program := options.order.run unit (window.limitPlace layout.limitOffset) command
    let lacks := window.lacks host layout.limitOffset
    .ok { station := (window.station layout.limitOffset (.ofLayout layout)).ending lacks,
          plan := .single (discard program) }
  (warnings, prepared)

end LimitWriter
end PackagePower.CommandLine
