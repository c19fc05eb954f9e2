import PackagePower.CommandLine.Options
import PackagePower.CommandLine.Plan
import PackagePower.Scan

/-!
# The window reader

Lists the registers commonly in the window, decoded where the units are asked for.
-/

namespace PackagePower.CommandLine

structure WindowReader where
  decode : Bool
  verbose : Bool

namespace WindowReader

def name : String := "mchbar-read"

inductive Id where
  | decode
  | verbose
  deriving DecidableEq

def specs : List (OptionSpec Id) :=
  [{ id := .decode, long := "decode" },
    { id := .verbose, long := "verbose", short := some 'v' }]

def parse (arguments : List String) : Option WindowReader := do
  let given ← CommandLine.parse specs arguments
  some { decode := isGiven given .decode, verbose := isGiven given .verbose }

def unit (options : WindowReader) (host : Host) (layout : Layout) :
    Except Fault (Option PowerUnit) :=
  if options.decode then some <$> hardwareUnit host layout else .ok none

def prepare (options : WindowReader) (host : Host) (layout : Layout) : Except Fault Prepared := do
  let unit ← options.unit host layout
  let window ← openWindow host layout .readOnly
  .ok { station := window.station layout.limitOffset (.ofLayout layout),
        plan := .single (window.dump host unit) }

end WindowReader
end PackagePower.CommandLine
