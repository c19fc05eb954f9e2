import PackagePower.Fault

/-!
# How a power limit is shown

The lines that show a power limit register: the raw value, both halves with their time
windows, and the lock.
-/

namespace PackagePower

/-- `text` with blanks behind it up to `width` characters. -/
def padRight (width : Nat) (text : String) : String :=
  text ++ String.ofList (List.replicate (width - text.length) ' ')

def flag (on : Bool) : String := if on then "1" else "0"

namespace LimitHalf

/-- One half of a limit, in units and in watts. -/
def line (name : String) (half : LimitHalf) (unit : PowerUnit) : String :=
  let count := half.power.toNat
  let watts := (unit.watts count).fixed 2
  let window := (windowSeconds half.window unit).fixed 6
  s!"  {name}  = {Text.decimal count} ({watts} W) enable={flag half.enabled} " ++
    s!"clamp={flag half.clamped} window={window} s"

end LimitHalf

namespace PowerLimit

/-- The lines that show the register `value` under the heading `label`. -/
def report (label : String) (value : Word) (unit : PowerUnit) : List String :=
  let limit := decode value
  [label, s!"  raw  = {value.text}", limit.first.line "PL1" unit, limit.second.line "PL2" unit,
    s!"  lock = {flag limit.locked}"]

end PowerLimit

def joinLines (lines : List String) : String := String.join (lines.map (· ++ "\n"))

end PackagePower
