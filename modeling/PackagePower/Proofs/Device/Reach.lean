import PackagePower.Program.Station
import PackagePower.Proofs.Device.Zone
import PackagePower.Proofs.Host.Reach
import PackagePower.Proofs.Session.Trace

/-!
# What devices reach

A device changes its own register or files, and a read changes nothing. The register file is the
one that could become longer; it does not where its register has been read, as a read that
succeeds shows that the file gets that far.
-/

namespace PackagePower

open Host (Within)

variable {reach : Reach} {host after : Host}

/-! ## One device -/

theorem replied_within {result : Except Fault Host}
    (each : ∀ after, result = .ok after → Within reach host after) :
    Within reach host (replied host result).2 := by
  cases result with
  | ok after => exact each after rfl
  | error fault => exact .refl reach host

theorem Zone.Wrote.within {zone : Zone} {store : Zone.Store} {limits : ZoneLimits}
    {answer : Except Fault Unit × Host} (wrote : Zone.Wrote zone store host limits answer)
    (member : ∀ index, (zone.constraint index).names ∈ reach.texts) :
    Within reach host answer.2 := by
  have text {index : LimitIndex} {file : FileId} (base : Host) (value : UInt64)
      (stands : host.handle? (zone.constraint index).names = some (.file file)) :
      Within reach base (holding base file value) := by
    apply Within.update_text
    rw [Host.names_of_handle? stands]
    exact member index
  cases wrote with
  | refused => exact .refl reach host
  | undone _ _ stands _ _ => exact (text host _ stands).trans (text _ _ stands)
  | both _ _ _ stands₁ stands₂ _ _ => exact (text host _ stands₁).trans (text _ _ stands₂)

theorem Window.write_within {window : Window} {offset : Nat} {value : Word}
    (member : (window.memory.names, window.base.toNat + offset) ∈ reach.registers)
    (wrote : window.write host offset value = .ok after) : Within reach host after := by
  unfold Window.write at wrote
  split at wrote
  · cases wrote
  · split at wrote
    · cases wrote
      exact .update_store member value
    · cases wrote

namespace RegisterFile
variable {file : RegisterFile} {number : Nat} {value : Word}

/-- The file gets past the register. -/
def Holds (file : RegisterFile) (host : Host) (number : Nat) : Prop :=
  ∀ id, file.handle = .file id → number + 8 ≤ (host.contents id).size

theorem holds_of_read (read : file.read host number = .ok value) : file.Holds host number := by
  intro id opened
  unfold RegisterFile.read Host.readWord at read
  rw [opened] at read
  by_cases far : Host.positionBound ≤ number + 8
  · rw [if_pos far] at read
    cases read
  · by_cases short : number + 8 ≤ (host.contents id).size
    · exact short
    · rw [if_neg far] at read
      dsimp only at read
      unfold Contents.read at read
      rw [if_neg short] at read
      cases read

theorem handle_of_writable {id : FileId} (writable : file.writable number = .ok id) :
    file.handle = .file id := by
  unfold RegisterFile.writable at writable
  split at writable
  · cases writable
  · split at writable
    · cases writable
    · split at writable
      · cases writable
      · split at writable
        · rename_i other same
          cases writable
          exact same
        · cases writable

theorem write_within (member : ∀ id, file.handle = .file id → (id.names, number) ∈ reach.registers)
    (holds : file.Holds host number) (wrote : file.write host number value = .ok after) :
    Within reach host after := by
  unfold RegisterFile.write at wrote
  cases writable : file.writable number with
  | error cause =>
    rw [writable] at wrote
    cases wrote
  | ok id =>
    have opened := handle_of_writable writable
    rw [writable] at wrote
    cases wrote
    exact .update_write (member id opened) (holds id opened) value

end RegisterFile

/-! ## Stations -/

section
variable {ω : Type} {operator : Operator ω} {station : Station Host} {world last : ω × Host}

theorem Program.run_within {α : Type} {allowed : Action → Prop} {program : Program α}
    (each : ∀ action, allowed action → ∀ world : ω × Host,
      Within reach world.2 ((operator.at station).answer action world).2.2)
    (only : program.Only allowed) (run : Run (ω × Host)) :
    Within reach run.world.2 (program.run (operator.at station) run).2.world.2 := by
  obtain ⟨events, trace, _, replays⟩ := Program.run_trace (operator.at station) program run
  exact Handler.replays_relates (fun before after : ω × Host => Within reach before.2 after.2)
    (fun _ => .refl reach _) Within.trans each (only.within trace) replays

/-- Reading leaves the host as it is. -/
def Station.Steady (station : Station Host) : Prop :=
  ∀ copy host, (station.read copy host).2 = host

theorem Station.Steady.answer_quiet (steady : station.Steady) {action : Action}
    (quiet : action.Quiet) (world : ω × Host) :
    ((operator.at station).answer action world).2.2 = world.2 := by
  cases action with
  | ask | readZone | warn => rfl
  | read copy => exact steady copy world.2
  | decide | write | writeZone => exact quiet.elim

/-- Where nothing is decided or written the host stays, and what was read is there. -/
theorem Station.Steady.replays_quiet (steady : station.Steady) {events : List Event}
    (quiet : ∀ event ∈ events, event.Within Action.Quiet)
    (replays : (operator.at station).Replays world events last) :
    last.2 = world.2 ∧ ∀ reading, Session.readingOf reading ∈ events →
      (station.read reading.1 world.2).1 = .ok reading.2 := by
  have same {events : List Event} {world last : ω × Host}
      (quiet : ∀ event ∈ events, event.Within Action.Quiet)
      (replays : (operator.at station).Replays world events last) : last.2 = world.2 := by
    apply Handler.replays_relates (fun before after : ω × Host => after.2 = before.2)
      (fun _ => rfl) (fun first second => second.trans first) _ quiet replays
    intro action permitted world
    exact steady.answer_quiet permitted world
  refine ⟨same quiet replays, ?_⟩
  intro reading member
  obtain ⟨before, after, middle, rfl, first, answered, _⟩ := Handler.replays_mem member replays
  have kept := same (fun event inside => quiet event (List.mem_append_left _ inside)) first
  rw [← kept]
  exact answered

theorem Station.Steady.run_quiet {α : Type} {program : Program α} (steady : station.Steady)
    (quiet : program.Only Action.Quiet) (run : Run (ω × Host)) :
    (program.run (operator.at station) run).2.world.2 = run.world.2 := by
  obtain ⟨events, trace, _, replays⟩ := Program.run_trace (operator.at station) program run
  exact (steady.replays_quiet (quiet.within trace) replays).1

end

theorem Window.station_steady (window : Window) (offset : Nat) (zone : Zone) :
    (window.station offset zone).Steady := fun _ _ => rfl

namespace Devices

theorem station_steady (devices : Devices) : devices.station.Steady := fun _ _ => rfl

/-- All that the devices write is within reach. -/
structure Reaches (devices : Devices) (reach : Reach) : Prop where
  file : ∀ id, devices.file.handle = .file id →
    (id.names, PowerLimit.register) ∈ reach.registers ∧ id.names ∉ reach.texts
  window :
    (devices.window.memory.names, devices.window.base.toNat + devices.limitOffset) ∈ reach.registers
  zone : ∀ index, (devices.zone.constraint index).names ∈ reach.texts

variable {devices : Devices}

theorem Reaches.holds (reaches : devices.Reaches reach) (within : Within reach host after)
    (holds : devices.file.Holds host PowerLimit.register) :
    devices.file.Holds after PowerLimit.register := by
  intro id opened
  rw [within.size id (reaches.file id opened).2]
  exact holds id opened

theorem Reaches.write_within (reaches : devices.Reaches reach) {copy : RegisterCopy} (value : Word)
    (holds : copy = .msr → devices.file.Holds host PowerLimit.register) :
    Within reach host (devices.station.write copy value host).2 := by
  apply replied_within
  intro after wrote
  cases copy with
  | msr =>
    exact RegisterFile.write_within (fun id opened => (reaches.file id opened).1) (holds rfl) wrote
  | mmio => exact Window.write_within reaches.window wrote

end Devices
end PackagePower
