import PackagePower.Device.Cell
import PackagePower.Device.Devices
import PackagePower.Program.Run

/-!
# Stations and operators

A station answers the actions on devices, an operator those on the terminal; together they
make a handler. The stations here are the devices of a host and a bench of two cells beside a
power zone. The operators are a script and a terminal whose input is known beforehand.
-/

namespace PackagePower

/-- How devices in a state of kind `σ` answer. -/
structure Station (σ : Type) where
  read : RegisterCopy → σ → Except Fault Word × σ
  write : RegisterCopy → Word → σ → Except Fault Unit × σ
  readZone : σ → Except Fault ZoneLimits
  writeZone : ZoneLimits → σ → Except Fault Unit × σ

/-- How an operator in a state of kind `ω` answers. -/
structure Operator (ω : Type) where
  line : String → ω → Option String × ω
  decide : PendingWrite → ω → Bool × ω

def Operator.at {ω σ : Type} (operator : Operator ω) (station : Station σ) : Handler (ω × σ) where
  answer
    | .ask label, (ω, σ) => let (reply, ω) := operator.line label ω; (reply, ω, σ)
    | .decide pending, (ω, σ) => let (reply, ω) := operator.decide pending ω; (reply, ω, σ)
    | .read copy, (ω, σ) => let (reply, σ) := station.read copy σ; (reply, ω, σ)
    | .write copy value, (ω, σ) => let (reply, σ) := station.write copy value σ; (reply, ω, σ)
    | .readZone, (ω, σ) => (station.readZone σ, ω, σ)
    | .writeZone limits, (ω, σ) => let (reply, σ) := station.writeZone limits σ; (reply, ω, σ)
    | .warn _, world => ((), world)

structure Bench where
  msr : Cell
  mmio : Cell
  zone : Zone
  host : Host

namespace Bench

def cell (bench : Bench) : RegisterCopy → Cell
  | .msr => bench.msr
  | .mmio => bench.mmio

def withCell (bench : Bench) (copy : RegisterCopy) (cell : Cell) : Bench :=
  match copy with
  | .msr => { bench with msr := cell }
  | .mmio => { bench with mmio := cell }

def station : Station Bench where
  read copy bench :=
    let (reply, cell) := (bench.cell copy).read
    (reply, bench.withCell copy cell)
  write copy value bench :=
    let (reply, cell) := (bench.cell copy).write value
    (reply, bench.withCell copy cell)
  readZone bench := bench.zone.read bench.host
  writeZone limits bench :=
    let (reply, host) := bench.zone.write bench.host limits
    (reply, { bench with host })

end Bench

/-- A change to a host that may fail, as a reply. -/
def replied (host : Host) : Except Fault Host → Except Fault Unit × Host
  | .ok after => (.ok (), after)
  | .error fault => (.error fault, host)

namespace Devices

def read (devices : Devices) (copy : RegisterCopy) (host : Host) : Except Fault Word :=
  match copy with
  | .msr => devices.file.read host PowerLimit.register
  | .mmio => devices.window.read host devices.limitOffset

def write (devices : Devices) (copy : RegisterCopy) (value : Word) (host : Host) :
    Except Fault Host :=
  match copy with
  | .msr => devices.file.write host PowerLimit.register value
  | .mmio => devices.window.write host devices.limitOffset value

def place (devices : Devices) : RegisterCopy → String
  | .msr => devices.file.limitPlace
  | .mmio => devices.window.limitPlace devices.limitOffset

def station (devices : Devices) : Station Host where
  read copy host := (devices.read copy host, host)
  write copy value host := replied host (devices.write copy value host)
  readZone host := devices.zone.read host
  writeZone limits host := devices.zone.write host limits

end Devices

/-- A window in place of both copies, for a run that opens no other register. -/
def Window.station (window : Window) (limitOffset : Nat) (zone : Zone) : Station Host where
  read _ host := (window.read host limitOffset, host)
  write _ value host := replied host (window.write host limitOffset value)
  readZone host := zone.read host
  writeZone limits host := zone.write host limits

/-- The station of a process that an access to the window's copy ends, if memory `lacks` it. What
such a write stores in pages that are there stays. -/
def Station.ending {σ : Type} (lacks : Bool) (station : Station σ) : Station σ where
  read copy world :=
    let (reply, after) := station.read copy world
    (if lacks ∧ copy = .mmio then .error .noPage else reply, after)
  write copy value world :=
    let (reply, after) := station.write copy value world
    (if lacks ∧ copy = .mmio then .error .noPage else reply, after)
  readZone := station.readZone
  writeZone := station.writeZone

/-- Lines and decisions in the order they are asked for. Past the end there are no lines and
every decision is a no. -/
structure Script where
  lines : List (Option String)
  answers : List Bool

def Script.operator : Operator Script where
  line _ script :=
    match script.lines with
    | [] => (none, script)
    | line :: rest => (line, { script with lines := rest })
  decide _ script :=
    match script.answers with
    | [] => (false, script)
    | answer :: rest => (answer, { script with answers := rest })

end PackagePower
