import PackagePower.Proofs.Device.Bench
import PackagePower.Proofs.Device.Cells
import PackagePower.Proofs.Program.Simulation

/-!
# Devices and a bench

Opened devices reply like a bench whose cells are free: no bit is stuck and no transfer fails. So
a program cannot tell the two apart, and what is found out about it on such a bench holds of it
over the devices.
-/

namespace PackagePower

variable {α ω : Type}

/-- A cell that takes every word and never fails. -/
structure Cell.Free (cell : Cell) : Prop where
  stuck : cell.stuck = 0
  reads : ∀ count, cell.readFails count = false
  writes : ∀ count, cell.writeFails count = false

namespace Cell.Free

variable {cell : Cell}

theorem read_reply (free : cell.Free) : cell.read.1 = .ok cell.value := by
  unfold Cell.read
  rw [free.reads]
  rfl

theorem read_free (free : cell.Free) : cell.read.2.Free := by
  unfold Cell.read
  rw [free.reads]
  exact ⟨free.stuck, free.reads, free.writes⟩

theorem write_reply (free : cell.Free) (value : Word) : (cell.write value).1 = .ok () := by
  unfold Cell.write
  rw [free.writes]
  rfl

theorem write_value (free : cell.Free) (value : Word) : (cell.write value).2.value = value :=
  (value_of_landed (free.write_reply value)).trans (settled_of_free free.stuck value)

theorem write_free (free : cell.Free) (value : Word) : (cell.write value).2.Free := by
  unfold Cell.write
  rw [free.writes]
  exact ⟨free.stuck, free.reads, free.writes⟩

end Cell.Free

namespace Bench

theorem value_withCell (bench : Bench) (copy : RegisterCopy) (cell : Cell) :
    (bench.withCell copy cell).value = Cells.set bench.value copy cell.value := by
  funext other
  unfold Cells.set
  by_cases same : other = copy
  · subst same
    rw [if_pos rfl]
    exact congrArg Cell.value (cell_withCell_self _ _ _)
  · rw [if_neg same]
    exact congrArg Cell.value (cell_withCell_other _ _ same)

theorem free_withCell {bench : Bench} {copy : RegisterCopy} {cell : Cell}
    (frees : ∀ copy, (bench.cell copy).Free) (free : cell.Free) (other : RegisterCopy) :
    ((bench.withCell copy cell).cell other).Free := by
  by_cases same : other = copy
  · subst same
    rw [cell_withCell_self]
    exact free
  · rw [cell_withCell_other _ _ same]
    exact frees other

theorem zone_withCell (bench : Bench) (copy : RegisterCopy) (cell : Cell) :
    (bench.withCell copy cell).zone = bench.zone := by
  cases copy <;> rfl

theorem host_withCell (bench : Bench) (copy : RegisterCopy) (cell : Cell) :
    (bench.withCell copy cell).host = bench.host := by
  cases copy <;> rfl

end Bench

theorem Cells.set_self (cells : Cells) (copy : RegisterCopy) :
    Cells.set cells copy (cells copy) = cells := by
  funext other
  unfold Cells.set
  split
  · rename_i same
    rw [same]
  · rfl

namespace Devices

/-- The bench has free cells with the words that the host shows, and the same power zone. -/
structure Mirrors (devices : Devices) (registers : FileId) (unit : Word) (host : Host)
    (bench : Bench) : Prop where
  shows : devices.Shows registers unit host bench.value bench.host
  zone : bench.zone = devices.zone
  free : ∀ copy, (bench.cell copy).Free

variable {devices : Devices} {registers : FileId} {unit : Word} {host after : Host} {bench : Bench}

namespace Mirrors

theorem withCell (mirrors : devices.Mirrors registers unit host bench) {copy : RegisterCopy}
    {cell : Cell} (free : cell.Free) (shows : devices.Shows registers unit after
      (Cells.set bench.value copy cell.value) bench.host) :
    devices.Mirrors registers unit after (bench.withCell copy cell) where
  shows := by
    rw [Bench.value_withCell, Bench.host_withCell]
    exact shows
  zone := (Bench.zone_withCell bench copy cell).trans mirrors.zone
  free := Bench.free_withCell mirrors.free free

theorem read (mirrors : devices.Mirrors registers unit host bench) (apart : devices.Apart registers)
    (copy : RegisterCopy) : devices.read copy host = (Bench.station.read copy bench).1 ∧
      devices.Mirrors registers unit host (Bench.station.read copy bench).2 := by
  have free := mirrors.free copy
  refine ⟨(mirrors.shows.read_eq apart copy).trans free.read_reply.symm, ?_⟩
  apply mirrors.withCell free.read_free
  rw [Cell.value_read]
  exact (Cells.set_self bench.value copy).symm ▸ mirrors.shows

theorem write (mirrors : devices.Mirrors registers unit host bench)
    (apart : devices.Apart registers) (copy : RegisterCopy) (value : Word) :
    (devices.station.write copy value host).1 = (Bench.station.write copy value bench).1 ∧
      devices.Mirrors registers unit (devices.station.write copy value host).2
        (Bench.station.write copy value bench).2 := by
  have free := mirrors.free copy
  obtain ⟨after, wrote, shows⟩ := mirrors.shows.write_eq apart copy value
  have left : devices.station.write copy value host = (.ok (), after) :=
    Window.replied_eq_ok.2 wrote
  rw [left]
  refine ⟨(free.write_reply value).symm, ?_⟩
  apply mirrors.withCell (free.write_free value)
  rw [free.write_value]
  exact shows

theorem writeZone (mirrors : devices.Mirrors registers unit host bench)
    (apart : devices.Apart registers) (limits : ZoneLimits) :
    (devices.station.writeZone limits host).1 = (Bench.station.writeZone limits bench).1 ∧
      devices.Mirrors registers unit (devices.station.writeZone limits host).2
        (Bench.station.writeZone limits bench).2 := by
  obtain ⟨same, shows⟩ := mirrors.shows.writeZone_eq apart limits
  change (devices.zone.write host limits).1 = (bench.zone.write bench.host limits).1 ∧
    devices.Mirrors registers unit (devices.zone.write host limits).2
      ⟨bench.msr, bench.mmio, bench.zone, (bench.zone.write bench.host limits).2⟩
  rw [mirrors.zone]
  exact ⟨same, shows, rfl, mirrors.free⟩

end Mirrors

/-- Devices and a bench that mirrors them reply alike, whoever the operator is. -/
theorem simulates (apart : devices.Apart registers) (operator : Operator ω) :
    (operator.at devices.station).Simulates (operator.at Bench.station) fun world beside =>
      world.1 = beside.1 ∧ devices.Mirrors registers unit world.2 beside.2 := by
  intro action world beside related
  obtain ⟨own, host⟩ := world
  obtain ⟨own', bench⟩ := beside
  obtain ⟨rfl, mirrors⟩ := related
  cases action with
  | ask label => exact ⟨rfl, rfl, mirrors⟩
  | decide pending => exact ⟨rfl, rfl, mirrors⟩
  | read copy =>
    obtain ⟨reply, after⟩ := mirrors.read apart copy
    exact ⟨reply, rfl, after⟩
  | write copy value =>
    obtain ⟨reply, after⟩ := mirrors.write apart copy value
    exact ⟨reply, rfl, after⟩
  | readZone =>
    refine ⟨?_, rfl, mirrors⟩
    change devices.zone.read host = bench.zone.read bench.host
    rw [mirrors.zone]
    exact mirrors.shows.zone.read
  | writeZone limits =>
    obtain ⟨reply, after⟩ := mirrors.writeZone apart limits
    exact ⟨reply, rfl, after⟩
  | warn text => exact ⟨rfl, rfl, mirrors⟩

/-- A program over devices opened for writing runs as it does over a bench with free cells that
hold the words of the register file and of memory, beside the same power zone. -/
theorem run_over_bench {layout : Layout} {base : Word} {file memory : Contents}
    (opened : openAll host layout base .readWrite = .ok devices)
    (found : host.find? layout.registerFile.names = some (.file file))
    (long : PowerLimit.register + 8 ≤ file.size)
    (device : host.find? layout.memory.names = some (.file memory))
    (far : base.toNat + layout.limitOffset + 8 ≤ memory.size)
    (aligned : layout.limitOffset % 4 = 0) (inside : layout.limitOffset + 8 ≤ layout.windowSize)
    (free : ∀ copy, (bench.cell copy).Free)
    (words : bench.value = Cells.initial file memory (base.toNat + layout.limitOffset))
    (zone : bench.zone = devices.zone) (shared : bench.host = host)
    (operator : Operator ω) (own : ω) (program : Program α) :
    let real := program.run (operator.at devices.station) { world := (own, host) }
    let fake := program.run (operator.at Bench.station) { world := (own, bench) }
    real.1 = fake.1 ∧ real.2.history = fake.2.history ∧ real.2.out = fake.2.out ∧
      real.2.err = fake.2.err ∧ real.2.world.1 = fake.2.world.1 := by
  intro real fake
  subst shared
  obtain ⟨_, apart, shows⟩ := shows_of_openAll opened found long device far aligned inside
  rw [← words] at shows
  have like : Run.Like (fun world beside => world.1 = beside.1 ∧
      devices.Mirrors _ _ world.2 beside.2)
      { world := (own, bench.host) } { world := (own, bench) } :=
    ⟨⟨rfl, shows, zone, free⟩, rfl, rfl, rfl⟩
  obtain ⟨result, like⟩ := program.run_like (simulates apart operator) like
  exact ⟨result, congrArg List.reverse like.events, like.out, like.err, like.world.1⟩

end Devices
end PackagePower
