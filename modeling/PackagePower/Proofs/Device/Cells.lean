import PackagePower.Proofs.Device.Alike
import PackagePower.Proofs.Device.Discovery
import PackagePower.Proofs.Device.Window

/-!
# Devices as independent cells

Devices opened for writing stand on four files, no two of which are the same. So each copy of the
limit answers every sequence of calls as one word that nothing but its own writes change, and the
power zone answers as if nobody called the registers. The units in use stay as they are.

What a host shows at one moment is `Devices.Shows`: a word for each copy, the word of the unit
register, and a host on which the zone alone was called.
-/

namespace PackagePower

variable {σ : Type}

/-! ## Calls -/

inductive Call where
  | read (copy : RegisterCopy)
  | write (copy : RegisterCopy) (value : Word)
  | readZone
  | writeZone (limits : ZoneLimits)

inductive Answer where
  | word (result : Except Fault Word)
  | limits (result : Except Fault ZoneLimits)
  | status (result : Except Fault Unit)

def Call.onZone : Call → Bool
  | .read _ => false
  | .write _ _ => false
  | .readZone => true
  | .writeZone _ => true

namespace Station

def answer (station : Station σ) : Call → σ → Answer × σ
  | .read copy, world =>
    let (reply, world) := station.read copy world
    (.word reply, world)
  | .write copy value, world =>
    let (reply, world) := station.write copy value world
    (.status reply, world)
  | .readZone, world => (.limits (station.readZone world), world)
  | .writeZone limits, world =>
    let (reply, world) := station.writeZone limits world
    (.status reply, world)

/-- The calls one after the other, each with its answer, and the world they leave. -/
def answers (station : Station σ) : List Call → σ → List (Call × Answer) × σ
  | [], world => ([], world)
  | call :: rest, world =>
    let (answer, world) := station.answer call world
    let (others, world) := station.answers rest world
    ((call, answer) :: others, world)

end Station

abbrev Cells : Type := RegisterCopy → Word

namespace Cells

def set (cells : Cells) (copy : RegisterCopy) (value : Word) : Cells :=
  fun other => if other = copy then value else cells other

/-- The words in the register file and, at a position, in memory. -/
def initial (registers memory : Contents) (position : Nat) : Cells
  | .msr => Word.ofBytes registers.byte PowerLimit.register
  | .mmio => Word.ofBytes memory.byte position

/-- What two words answer to the calls of registers. Every call succeeds. -/
def answers : List Call → Cells → List (Call × Answer)
  | [], _ => []
  | .read copy :: rest, cells => (.read copy, .word (.ok (cells copy))) :: answers rest cells
  | .write copy value :: rest, cells =>
    (.write copy value, .status (.ok ())) :: answers rest (cells.set copy value)
  | .readZone :: rest, cells => answers rest cells
  | .writeZone _ :: rest, cells => answers rest cells

end Cells

/-! ## What a host shows -/

namespace Devices

/-- The devices are open for writing, the limit is inside the window, and no two of the files
under them are the same. -/
structure Apart (devices : Devices) (registers : FileId) : Prop where
  handle : devices.file.handle = .file registers
  fileAccess : devices.file.access = .readWrite
  windowAccess : devices.window.access = .readWrite
  inside : devices.window.contains devices.limitOffset = true
  memory : registers.names ≠ devices.window.memory.names
  registersZone : ∀ index, registers.names ≠ (devices.zone.constraint index).names
  memoryZone : ∀ index, devices.window.memory.names ≠ (devices.zone.constraint index).names

/-- The words that the host has in the register file and the window, and a host with the same
power zone. -/
structure Shows (devices : Devices) (registers : FileId) (unit : Word) (host : Host)
    (cells : Cells) (alone : Host) : Prop where
  unit : (host.contents registers).read PowerUnit.register = .complete unit
  msr : (host.contents registers).read PowerLimit.register = .complete (cells .msr)
  mmio : (host.contents devices.window.memory).read
    (devices.window.base.toNat + devices.limitOffset) = .complete (cells .mmio)
  zone : devices.zone.Alike host alone

variable {devices : Devices} {registers : FileId} {unit : Word} {host alone : Host} {cells : Cells}

theorem read_of_complete {file : RegisterFile} {number : Nat} {value : Word}
    (opened : file.handle = .file registers) (near : number + 8 < Host.positionBound)
    (complete : (host.contents registers).read number = .complete value) :
    file.read host number = .ok value := by
  unfold RegisterFile.read Host.readWord
  rw [opened, if_neg (Nat.not_le_of_lt near)]
  simp only [complete]

theorem Shows.powerUnit_eq (shows : devices.Shows registers unit host cells alone)
    (apart : devices.Apart registers) :
    devices.file.powerUnit host = .ok (PowerUnit.decode unit) := by
  unfold RegisterFile.powerUnit
  rw [read_of_complete apart.handle (by decide) shows.unit]
  simp only [bind, Except.bind, PowerUnit.defect?_decode]

theorem Shows.read_eq (shows : devices.Shows registers unit host cells alone)
    (apart : devices.Apart registers) (copy : RegisterCopy) :
    devices.read copy host = .ok (cells copy) := by
  cases copy with
  | msr => exact read_of_complete apart.handle (by decide) shows.msr
  | mmio =>
    obtain ⟨_, word⟩ := Contents.read_eq_complete_iff.1 shows.mmio
    exact Window.read_eq_ok.2 ⟨apart.inside, word⟩

theorem Apart.write_msr (apart : devices.Apart registers) (value : Word) (host : Host) :
    devices.write .msr value host =
      .ok (host.update registers fun contents => contents.write PowerLimit.register value) := by
  have writable : devices.file.writable PowerLimit.register = .ok registers := by
    unfold RegisterFile.writable
    rw [apart.fileAccess, apart.handle, if_neg (by decide), if_neg (by decide), if_neg (by decide)]
  change devices.file.write host PowerLimit.register value = _
  unfold RegisterFile.write
  rw [writable]

/-- A write lands, and what the host shows after it differs in that word only. -/
theorem Shows.write_eq (shows : devices.Shows registers unit host cells alone)
    (apart : devices.Apart registers) (copy : RegisterCopy) (value : Word) :
    ∃ after, devices.write copy value host = .ok after ∧
      devices.Shows registers unit after (cells.set copy value) alone := by
  cases copy with
  | msr =>
    obtain ⟨long, _⟩ := Contents.read_eq_complete_iff.1 shows.msr
    refine ⟨_, apart.write_msr value host, ?_, ?_, ?_, shows.zone.update _ apart.registersZone⟩
    · -- The unit register is in the same file, at other bytes.
      rw [Host.contents_update, if_pos rfl,
        Contents.read_write_apart value long (.inl (by decide))]
      exact shows.unit
    · rw [Host.contents_update, if_pos rfl]
      exact Contents.read_write _ _ value
    · rw [Host.contents_apart apart.memory.symm]
      exact shows.mmio
  | mmio =>
    obtain ⟨long, _⟩ := Contents.read_eq_complete_iff.1 shows.mmio
    refine ⟨_, (Window.write_eq_ok apart.windowAccess).2 ⟨apart.inside, rfl⟩, ?_, ?_, ?_,
      shows.zone.update _ apart.memoryZone⟩
    · rw [Window.stored, Host.contents_apart apart.memory]
      exact shows.unit
    · rw [Window.stored, Host.contents_apart apart.memory]
      exact shows.msr
    · rw [Window.stored, Host.contents_update, if_pos rfl]
      exact Contents.read_store long value

/-- A write of both constraints comes to what it comes to alone, and changes neither word. -/
theorem Shows.writeZone_eq (shows : devices.Shows registers unit host cells alone)
    (apart : devices.Apart registers) (limits : ZoneLimits) :
    (devices.zone.write host limits).1 = (devices.zone.write alone limits).1 ∧
      devices.Shows registers unit (devices.zone.write host limits).2 cells
        (devices.zone.write alone limits).2 := by
  obtain ⟨same, alike⟩ := shows.zone.write limits
  have kept {file : FileId} (other : ∀ index, file.names ≠ (devices.zone.constraint index).names) :
      (devices.zone.write host limits).2.contents file = host.contents file :=
    (devices.zone.write_wrote host limits).contents_elsewhere other
  refine ⟨same, ?_, ?_, ?_, alike⟩
  · rw [kept apart.registersZone]
    exact shows.unit
  · rw [kept apart.registersZone]
    exact shows.msr
  · rw [kept apart.memoryZone]
    exact shows.mmio

/-! ## Sequences of calls -/

theorem Shows.answers (apart : devices.Apart registers) (calls : List Call) :
    ∀ {host alone : Host} {cells : Cells}, devices.Shows registers unit host cells alone →
      (devices.station.answers calls host).1.filter (fun answered => !answered.1.onZone) =
          cells.answers calls ∧
        (devices.station.answers calls host).1.filter (fun answered => answered.1.onZone) =
          (devices.station.answers (calls.filter Call.onZone) alone).1 ∧
        ∃ cells' alone',
          devices.Shows registers unit (devices.station.answers calls host).2 cells' alone' := by
  induction calls with
  | nil =>
    intro host alone cells shows
    exact ⟨rfl, rfl, cells, alone, shows⟩
  | cons call rest ih =>
    intro host alone cells shows
    cases call with
    | read copy =>
      obtain ⟨registers, zone, shown⟩ := ih shows
      refine ⟨?_, zone, shown⟩
      change (Call.read copy, Answer.word (devices.read copy host)) :: _ = _
      rw [shows.read_eq apart copy]
      exact congrArg _ registers
    | write copy value =>
      obtain ⟨after, wrote, shows'⟩ := shows.write_eq apart copy value
      obtain ⟨registers, zone, shown⟩ := ih shows'
      have left : devices.station.write copy value host = (.ok (), after) :=
        Window.replied_eq_ok.2 wrote
      simp only [Station.answers, Station.answer, left]
      exact ⟨congrArg _ registers, zone, shown⟩
    | readZone =>
      obtain ⟨registers, zone, shown⟩ := ih shows
      refine ⟨registers, ?_, shown⟩
      change (Call.readZone, Answer.limits (devices.zone.read host)) :: _ = _
      rw [shows.zone.read]
      exact congrArg _ zone
    | writeZone limits =>
      obtain ⟨same, shows'⟩ := shows.writeZone_eq apart limits
      obtain ⟨registers, zone, shown⟩ := ih shows'
      refine ⟨registers, ?_, shown⟩
      change (Call.writeZone limits, Answer.status (devices.zone.write host limits).1) :: _ = _
      rw [same]
      exact congrArg _ zone

/-- Devices that are opened for writing, with the limit inside the window, share no file. -/
theorem apart_of_openAll {layout : Layout} {base : Word}
    (opened : openAll host layout base .readWrite = .ok devices)
    (stands : host.handle? layout.registerFile.names = some (.file registers))
    (aligned : layout.limitOffset % 4 = 0) (inside : layout.limitOffset + 8 ≤ layout.windowSize) :
    devices.Apart registers ∧ devices.window.base = base ∧
      devices.limitOffset = layout.limitOffset ∧
      host.handle? layout.memory.names = some (.file devices.window.memory) := by
  obtain ⟨file, opened₁, rest⟩ := bind_eq_ok opened
  obtain ⟨window, mapped, same⟩ := bind_eq_ok rest
  cases same
  obtain ⟨handle, fileAccess⟩ := RegisterFile.openFor_eq_ok opened₁
  obtain ⟨memory, size, windowAccess⟩ := Window.map_eq_ok mapped
  have named := Host.names_of_handle? stands
  have memoryNamed := Host.names_of_handle? memory
  refine ⟨⟨Option.some.inj (handle.symm.trans stands), fileAccess, windowAccess, ?_, ?_, ?_, ?_⟩,
    Window.base_of_map mapped, rfl, memory⟩
  · unfold Window.contains
    dsimp only
    rw [size]
    simp [aligned, inside]
  · rw [named, memoryNamed]
    simp [Layout.registerFile, Layout.processors, Layout.memory, Path.child]
  · intro index
    rw [named]
    simp [Layout.registerFile, Layout.processors, Zone.constraint, Zone.ofLayout, Layout.zone,
      Path.child]
  · intro index
    dsimp only
    rw [memoryNamed]
    simp [Layout.memory, Zone.constraint, Zone.ofLayout, Layout.zone, Path.child]

section
variable {layout : Layout} {base : Word} {file memory : Contents}

theorem shows_of_openAll (opened : openAll host layout base .readWrite = .ok devices)
    (found : host.find? layout.registerFile.names = some (.file file))
    (long : PowerLimit.register + 8 ≤ file.size)
    (device : host.find? layout.memory.names = some (.file memory))
    (far : base.toNat + layout.limitOffset + 8 ≤ memory.size)
    (aligned : layout.limitOffset % 4 = 0) (inside : layout.limitOffset + 8 ≤ layout.windowSize) :
    ∃ registers, devices.Apart registers ∧
      devices.Shows registers (Word.ofBytes file.byte PowerUnit.register) host
        (.initial file memory (base.toNat + layout.limitOffset)) host := by
  obtain ⟨registers, stands, rfl⟩ := Host.find?_eq_file_iff.1 found
  obtain ⟨apart, rfl, offset, mapped⟩ := apart_of_openAll opened stands aligned inside
  obtain ⟨_, same, rfl⟩ := Host.find?_eq_file_iff.1 device
  cases mapped.symm.trans same
  have near : PowerUnit.register + 8 ≤ PowerLimit.register + 8 := by decide
  refine ⟨registers, apart, Contents.read_eq_complete_iff.2 ⟨Nat.le_trans near long, rfl⟩,
    Contents.read_eq_complete_iff.2 ⟨long, rfl⟩, ?_, .refl _ _⟩
  rw [offset]
  exact Contents.read_eq_complete_iff.2 ⟨far, rfl⟩

/-- Opened devices answer every sequence of calls as two words of their own beside a power zone
that is called alone, and the units in use are the same after it. -/
theorem accessors_are_cells (opened : openAll host layout base .readWrite = .ok devices)
    (found : host.find? layout.registerFile.names = some (.file file))
    (long : PowerLimit.register + 8 ≤ file.size)
    (device : host.find? layout.memory.names = some (.file memory))
    (far : base.toNat + layout.limitOffset + 8 ≤ memory.size)
    (aligned : layout.limitOffset % 4 = 0) (inside : layout.limitOffset + 8 ≤ layout.windowSize)
    (calls : List Call) :
    (devices.station.answers calls host).1.filter (fun answered => !answered.1.onZone) =
        Cells.answers calls (.initial file memory (base.toNat + layout.limitOffset)) ∧
      (devices.station.answers calls host).1.filter (fun answered => answered.1.onZone) =
        (devices.station.answers (calls.filter Call.onZone) host).1 ∧
      ∃ unit, devices.file.powerUnit host = .ok unit ∧
        devices.file.powerUnit (devices.station.answers calls host).2 = .ok unit := by
  obtain ⟨_, apart, shows⟩ := shows_of_openAll opened found long device far aligned inside
  obtain ⟨cells, zone, _, _, shown⟩ := shows.answers apart calls
  exact ⟨cells, zone, _, shows.powerUnit_eq apart, shown.powerUnit_eq apart⟩

end

/-- A machine with both copies of the limit and a power zone. The window is at 2 MiB. -/
def twoCopies : Host where
  entries := [(["dev", "mem"], .file 0), (["dev", "cpu", "0", "msr"], .file 1),
    (["sys", "class", "powercap", "intel-rapl:0", "constraint_0_power_limit_uw"], .file 2),
    (["sys", "class", "powercap", "intel-rapl:0", "constraint_1_power_limit_uw"], .file 3)]
  files := [
    (⟨["dev", "mem"], 0⟩, (Contents.zeros 0x400000).write 0x2059A0 0x8042864000DD8578#64),
    (⟨["dev", "cpu", "0", "msr"], 1⟩,
      ((Contents.zeros 0x1000).write 0x606 0xA0E03#64).write 0x610 0x00428640009B8578#64),
    (⟨["sys", "class", "powercap", "intel-rapl:0", "constraint_0_power_limit_uw"], 2⟩,
      .ofText "157000000\n"),
    (⟨["sys", "class", "powercap", "intel-rapl:0", "constraint_1_power_limit_uw"], 3⟩,
      .ofText "157000000\n")]
  made := 4

theorem twoCopies_are_cells :
    ∃ devices, openAll twoCopies { root := "host" } 0x200000#64 .readWrite = .ok devices ∧
      (devices.station.answers [.write .msr 7#64, .writeZone ⟨50, 60⟩, .read .mmio, .read .msr]
          twoCopies).1.filter (fun answered => !answered.1.onZone) =
        [(.write .msr 7#64, .status (.ok ())), (.read .mmio, .word (.ok 0x8042864000DD8578#64)),
          (.read .msr, .word (.ok 7#64))] := by
  obtain ⟨devices, opened⟩ : ∃ devices,
      openAll twoCopies { root := "host" } 0x200000#64 .readWrite = .ok devices := ⟨_, rfl⟩
  refine ⟨devices, opened, ?_⟩
  have cells := (accessors_are_cells opened rfl (by decide) rfl (by decide) (by decide) (by decide)
    [.write .msr 7#64, .writeZone ⟨50, 60⟩, .read .mmio, .read .msr]).1
  have word : Word.ofBytes ((Contents.zeros 0x400000).write 0x2059A0 0x8042864000DD8578#64).byte
      0x2059A0 = 0x8042864000DD8578#64 := Contents.ofBytes_patch _ _ _
  exact cells.trans (congrArg (fun word => [(Call.write .msr 7#64, Answer.status (.ok ())),
    (.read .mmio, .word (.ok word)), (.read .msr, .word (.ok 7#64))]) word)

end Devices
end PackagePower
