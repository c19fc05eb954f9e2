import PackagePower.Proofs.Program.Fault

/-!
# Faults of devices

What a device holds is parsed in many places, and none of them reports a fault of usage: a
constraint with no number in it and a unit that cannot be are faults of the hardware, and a bridge
that cannot be read is one of discovery. So what the library does to a device fails with a fault
of a device or not at all.
-/

namespace PackagePower

/-- A fault of opening, finding, reading or writing a device, or of a quantity that it cannot
hold. What somebody typed, a channel that takes no more and the end of the process are none of its
faults. -/
def Fault.OfDevice : Fault → Prop
  | .parse _ => False
  | .brokenStream => False
  | .noPage => False
  | _ => True

theorem Fault.OfDevice.exitStatus {fault : Fault} (device : fault.OfDevice) :
    fault.exitStatus = 1 := by
  cases fault with
  | parse | noPage => exact device.elim
  | _ => rfl

theorem Fault.OfDevice.unbroken {fault : Fault} (device : fault.OfDevice) :
    fault ≠ .brokenStream := by
  rintro rfl
  exact device

theorem Fault.OfDevice.outlived {fault : Fault} (device : fault.OfDevice) : fault ≠ .noPage := by
  rintro rfl
  exact device

namespace FaultsIn

theorem inRange {α : Type} (checked : Except RangeError α) :
    FaultsIn Fault.OfDevice (inRange checked) := mapError (fun _ => trivial) checked

theorem replied {good : Fault → Prop} {host : Host} {result : Except Fault Host}
    (within : FaultsIn good result) : FaultsIn good (replied host result).1 := by
  cases result with
  | ok after => exact ok ()
  | error fault => exact within.passed_on rfl

end FaultsIn

/-! ## Cells and registers -/

theorem Cell.read_ofDevice (cell : Cell) : FaultsIn Fault.OfDevice cell.read.1 := by
  unfold Cell.read
  dsimp only
  split
  · exact .error trivial
  · exact .ok _

theorem Cell.write_ofDevice (cell : Cell) (value : Word) :
    FaultsIn Fault.OfDevice (cell.write value).1 := by
  unfold Cell.write
  dsimp only
  split
  · exact .error trivial
  · exact .ok _

namespace RegisterFile

theorem openFor_ofDevice (host : Host) (layout : Layout) (access : Access) :
    FaultsIn Fault.OfDevice (openFor host layout access) := by
  unfold openFor
  dsimp only
  split
  · exact .error trivial
  · exact .ok _

variable (file : RegisterFile) (host : Host) (number : Nat)

theorem read_ofDevice : FaultsIn Fault.OfDevice (file.read host number) := by
  unfold read
  split
  · exact .error trivial
  · exact .error trivial
  · exact .ok _

theorem write_ofDevice (value : Word) : FaultsIn Fault.OfDevice (file.write host number value) := by
  unfold write
  split
  · exact .error trivial
  · exact .ok _

theorem powerUnit_ofDevice : FaultsIn Fault.OfDevice (file.powerUnit host) := by
  refine .bind (file.read_ofDevice host _) fun raw => ?_
  dsimp only
  split
  · exact .error trivial
  · exact .ok _

end RegisterFile

/-! ## The window -/

theorem discover_ofDevice (host : Host) (layout : Layout) :
    FaultsIn Fault.OfDevice (discover host layout) := .mapError (fun _ => trivial) _

namespace Window

theorem map_ofDevice (host : Host) (layout : Layout) (base : Word) (access : Access) :
    FaultsIn Fault.OfDevice (map host layout base access) := by
  unfold map
  dsimp only
  split
  · exact .error trivial
  · split
    · exact .error trivial
    · exact .ok _

variable (window : Window) (host : Host) (offset : Nat)

theorem read_ofDevice : FaultsIn Fault.OfDevice (window.read host offset) := by
  unfold read
  split
  · exact .ok _
  · exact .error trivial

theorem write_ofDevice (value : Word) :
    FaultsIn Fault.OfDevice (window.write host offset value) := by
  unfold write
  split
  · exact .error trivial
  · split
    · exact .ok _
    · exact .error trivial

end Window

/-! ## The power zone -/

namespace Zone
variable (zone : Zone) (host : Host)

theorem readConstraint_ofDevice (index : LimitIndex) :
    FaultsIn Fault.OfDevice (zone.readConstraint host index) := by
  unfold readConstraint
  dsimp only
  split
  · exact .error trivial
  · split
    · exact .ok _
    · exact .error trivial

theorem writeConstraint_ofDevice (index : LimitIndex) (value : UInt64) :
    FaultsIn Fault.OfDevice (zone.writeConstraint host index value) :=
  .mapError (fun _ => trivial) _

theorem read_ofDevice : FaultsIn Fault.OfDevice (zone.read host) :=
  .bind (zone.readConstraint_ofDevice host .first) fun _ =>
    .bind (zone.readConstraint_ofDevice host .second) fun _ => .ok _

theorem write_ofDevice (limits : ZoneLimits) :
    FaultsIn Fault.OfDevice (zone.write host limits).1 := by
  unfold write writeWith
  split
  · exact .error trivial
  · split
    · rename_i failed
      exact (zone.readConstraint_ofDevice host .first).passed_on failed
    · split
      · rename_i failed
        exact (zone.writeConstraint_ofDevice host .first _).passed_on failed
      · rename_i half _
        split
        · exact .ok ()
        · rename_i failed
          exact (zone.writeConstraint_ofDevice half .second _).passed_on failed

end Zone

/-! ## Stations -/

theorem Bench.station_ofDevice : Bench.station.RepliesIn Fault.OfDevice where
  read copy bench := (bench.cell copy).read_ofDevice
  write copy value bench := (bench.cell copy).write_ofDevice value
  readZone bench := bench.zone.read_ofDevice bench.host
  writeZone limits bench := bench.zone.write_ofDevice bench.host limits

theorem Devices.station_ofDevice (devices : Devices) :
    devices.station.RepliesIn Fault.OfDevice where
  read copy host := by
    cases copy with
    | msr => exact devices.file.read_ofDevice host _
    | mmio => exact devices.window.read_ofDevice host _
  write copy value host := by
    cases copy with
    | msr => exact (devices.file.write_ofDevice host _ value).replied
    | mmio => exact (devices.window.write_ofDevice host _ value).replied
  readZone host := devices.zone.read_ofDevice host
  writeZone limits host := devices.zone.write_ofDevice host limits

/-- What a session comes to over these devices it can report. -/
theorem Devices.station_unbroken (devices : Devices) :
    devices.station.RepliesIn (· ≠ .brokenStream) :=
  devices.station_ofDevice.mono fun _ device => device.unbroken

theorem Window.station_ofDevice (window : Window) (offset : Nat) (zone : Zone) :
    (window.station offset zone).RepliesIn Fault.OfDevice where
  read _ host := window.read_ofDevice host offset
  write _ value host := (window.write_ofDevice host offset value).replied
  readZone host := zone.read_ofDevice host
  writeZone limits host := zone.write_ofDevice host limits

end PackagePower
