import PackagePower.Host.Layout
import PackagePower.Quantity

/-!
# The kernel's power zone

A zone is a directory with a file for each of two constraints, in microwatts. The two are
written as one: where the second cannot be written the first is put back. A file that is
missing means the wrong zone and is not made.
-/

namespace PackagePower

/-- The two constraints of a zone in microwatts. -/
structure ZoneLimits where
  first : UInt64
  second : UInt64
  deriving DecidableEq

/-- Whole microwatts nearest to `watts`, of which there must be some. -/
def microwatts (watts : Binary64) : Except RangeError UInt64 :=
  match watts.positive? with
  | none => .error (.notPositive watts)
  | some _ =>
    let largest := UInt64.size - 1
    let count :=
      match watts.timesNat 1000000 with
      | .finite _ steps _ => min (Binary64.roundHalfUp steps) largest
      | _ => largest
    if count = 0 then .error (.notPositive watts) else .ok (.ofNat count)

structure Zone where
  directory : Path

namespace Zone

def ofLayout (layout : Layout) : Zone := ⟨layout.zone⟩

def constraintName : LimitIndex → String
  | .first => "constraint_0_power_limit_uw"
  | .second => "constraint_1_power_limit_uw"

variable (zone : Zone) (host : Host)

def constraint (index : LimitIndex) : Path := zone.directory.child (constraintName index)

def readConstraint (index : LimitIndex) : Except Fault UInt64 :=
  let path := zone.constraint index
  match host.readText path.names with
  | .error cause => .error (.transfer .read path.text cause)
  | .ok text =>
    let given := Text.trimChars text.toList
    match Text.readNumeral 10 UInt64.size given with
    | .ok n => .ok (.ofNat n)
    | .error detail =>
      .error (.hardware (.constraint path.text (String.ofList given) detail))

def writeConstraint (index : LimitIndex) (value : UInt64) : Except Fault Host :=
  let path := zone.constraint index
  (host.writeText path.names (Text.decimal value.toNat)).mapError (.transfer .write path.text)

def read : Except Fault ZoneLimits := do
  let first ← zone.readConstraint host .first
  let second ← zone.readConstraint host .second
  .ok { first, second }

/-- How the file of a constraint takes a number. -/
abbrev Store := Host → LimitIndex → UInt64 → Except Fault Host

/-- Writes both constraints with `store` or, on a fault, leaves both at their values. -/
def writeWith (store : Store) (limits : ZoneLimits) : Except Fault Unit × Host :=
  if limits.first = 0 ∨ limits.second = 0 then
    (.error (.range (.notPositive (.finite false 0 .zero))), host)
  else
    match zone.readConstraint host .first with
    | .error fault => (.error fault, host)
    | .ok previous =>
      match store host .first limits.first with
      | .error fault => (.error fault, host)
      | .ok half =>
        match store half .second limits.second with
        | .ok whole => (.ok (), whole)
        | .error fault => (.error fault, (store half .first previous).toOption.getD half)

def write (limits : ZoneLimits) : Except Fault Unit × Host :=
  zone.writeWith host zone.writeConstraint limits

end Zone
end PackagePower
