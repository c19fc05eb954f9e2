import PackagePower.CommandLine.Options
import PackagePower.CommandLine.Plan

/-!
# The limit panel

An interactive session over the devices of the host.
-/

namespace PackagePower.CommandLine

structure LimitPanel where
  offset : Option Nat
  verbose : Bool

namespace LimitPanel

def name : String := "limits-ui"

inductive Id where
  | offset
  | verbose
  deriving DecidableEq

def specs : List (OptionSpec Id) :=
  [{ id := .offset, long := "offset", arity := .values 1 false },
    { id := .verbose, long := "verbose", short := some 'v' }]

def parse (arguments : List String) : Option LimitPanel := do
  let given ← CommandLine.parse specs arguments
  let offset ← valueOf given .offset Quantity.offset
  some { offset, verbose := isGiven given .verbose }

def panel (devices : Devices) (unit : PowerUnit) : Panel where
  unit
  place := devices.place
  zone := devices.zone.directory.text

def opening (devices : Devices) (unit : PowerUnit) : Program Unit :=
  Program.sayAll
    [s!"Limits UI ({devices.place .msr} + {devices.place .mmio})",
      s!"Power unit: 2^-{Text.decimal unit.power.toNat} W = {unit.wattsPerUnit.fixed 6} W",
      ""]

def prepare (options : LimitPanel) (host : Host) (layout : Layout) : Except Fault Prepared := do
  let layout := { layout with limitOffset := options.offset.getD layout.limitOffset }
  let published ← discover host layout
  let devices ← Devices.openAll host layout published.address .readWrite
  let unit ← devices.file.powerUnit host
  let lacks := devices.window.lacks host layout.limitOffset
  .ok { station := devices.station.ending lacks,
        plan := .session (opening devices unit) (panel devices unit) }

end LimitPanel
end PackagePower.CommandLine
