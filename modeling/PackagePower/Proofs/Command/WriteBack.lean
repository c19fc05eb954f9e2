import PackagePower.Proofs.Command.Independence
import PackagePower.Proofs.Device.Discovery
import PackagePower.Proofs.Device.StuckBits
import PackagePower.Proofs.Quantity
import PackagePower.Proofs.Snapshot

/-!
# Writing back what was read

A front end has a word as the snapshot shows it, and limits of the power zone as decimals. Either
text is what a write command takes. A captured word has the stuck bits of its register, and no
write changes those, so written back later it is taken as it is, whatever the register holds by
then.
-/

namespace PackagePower

-- Powers of whole numbers are core's, whatever else is imported.
attribute [local instance (1100)] instPowNat

theorem Quantity.microwatts_decimal (value : UInt64) :
    microwatts (Text.decimal value.toNat) = .ok value := by
  unfold microwatts
  rw [Text.readNumeral_decimal value.toNat_lt]
  simp

/-! ## Texts -/

namespace Snapshot

def key : RegisterCopy → String
  | .msr => "MSR"
  | .mmio => "MMIO"

def word (snapshot : Snapshot) : RegisterCopy → Word
  | .msr => snapshot.msr
  | .mmio => snapshot.mmio

/-- The lines of a text that start with `key` and `=`. -/
def linesFor (key text : String) : List (List Char) :=
  (splitLines text.toList).filter fun line => (key ++ "=").toList.isPrefixOf line

/-- A copy is shown on one line, behind its key. -/
theorem linesFor_render (snapshot : Snapshot) (copy : RegisterCopy) :
    linesFor (key copy) snapshot.render =
      [(key copy ++ "=" ++ (snapshot.word copy).text).toList] := by
  have whole : ∀ line ∈ snapshot.fields.map fieldLine, '\n' ∉ line.toList := by
    intro line member
    obtain ⟨field, given, rfl⟩ := List.mem_map.1 member
    exact (snapshot.legible_fields field given).no_line_end
  unfold linesFor
  rw [render_eq, splitLines_joinLines whole]
  simp only [fields, List.map_cons, List.map_nil, toList_fieldLine]
  rw [String.toList_append, String.toList_append]
  -- The keys are apart before their values begin, so each line is decided by its key.
  cases copy <;> rfl

end Snapshot

/-! ## Stuck bits -/

namespace Bench

/-- The bench after one write after the other to a register. -/
def afterWrites (bench : Bench) (copy : RegisterCopy) (words : List Word) : Bench :=
  words.foldl (fun bench word => (station.write copy word bench).2) bench

theorem afterWrites_stuckAlike (bench : Bench) (copy : RegisterCopy) (words : List Word) :
    StuckAlike bench (bench.afterWrites copy words) := by
  induction words generalizing bench with
  | nil => exact .refl bench
  | cons word rest ih =>
    have first : StuckAlike bench (station.write copy word bench).2 := by
      cases landed : (station.write copy word bench).1 with
      | ok => exact .of_takes (write_takes landed)
      | error fault => exact .of_keeps (write_keeps landed)
    exact first.trans (ih _)

end Bench

namespace Command

variable {ω : Type}

/-- A write to a register in `world` succeeds and leaves `word` in it. -/
def Lands (operator : Operator ω) (unit : PowerUnit) (copy : RegisterCopy) (word : Word)
    (world : ω × Bench) : Prop :=
  let written := (Command.write copy word).executedIn (operator.at Bench.station) unit world
  written.1 = .ok .done ∧ (written.2.2.cell copy).value = word

theorem lands_of_held {operator : Operator ω} {unit : PowerUnit} {copy : RegisterCopy}
    {word : Word} {world : ω × Bench}
    (held : (world.2.cell copy).value &&& (world.2.cell copy).stuck =
      word &&& (world.2.cell copy).stuck)
    (able : (world.2.cell copy).writeFails (world.2.cell copy).writes = false) :
    Lands operator unit copy word world := by
  have landed : (Bench.station.write copy word world.2).1 = .ok () := by
    change ((world.2.cell copy).write word).1 = _
    unfold Cell.write
    rw [able]
    rfl
  have taken : (Bench.station.write copy word world.2).2.value copy = word :=
    (Bench.write_takes landed).value.trans (Cell.settled_of_held held)
  unfold Lands
  rw [executedIn_write]
  exact ⟨congrArg (Except.map fun _ => CommandReply.done) landed, taken⟩

/-! ## Reading -/

theorem read_run (operator : Operator ω) (copy : RegisterCopy) (run : Run (ω × Bench)) :
    ∃ after, (Attempt.read copy).run (operator.at Bench.station) run =
        ((run.world.2.cell copy).read.1, after) ∧
      after.world.2 = run.world.2.withCell copy (run.world.2.cell copy).read.2 := ⟨_, rfl, rfl⟩

/-- A snapshot has what both registers read; the first of their faults takes its place. -/
theorem executedIn_read (operator : Operator ω) (unit : PowerUnit) (world : ω × Bench) :
    (Command.read.executedIn (operator.at Bench.station) unit world).1 = (do
      let msr ← world.2.msr.read.1
      let mmio ← world.2.mmio.read.1
      .ok (.snapshot
        { exponent := unit.power, wattsPerUnit := unit.wattsPerUnit, msr, mmio })) := by
  obtain ⟨middle, first, left⟩ := read_run operator .msr { world }
  obtain ⟨last, second, _⟩ := read_run operator .mmio middle
  rw [left] at second
  change _ = (world.2.msr.read.1, middle) at first
  change _ = (world.2.mmio.read.1, last) at second
  unfold executedIn execute Snapshot.capture
  rw [map_eq_pure_bind, Attempt.run_bind, Attempt.run_bind, first]
  cases world.2.msr.read.1 with
  | error fault => rfl
  | ok msr =>
    dsimp only
    rw [Attempt.run_bind, second]
    cases world.2.mmio.read.1 <;> rfl

theorem captured_word {operator : Operator ω} {unit : PowerUnit} {world : ω × Bench}
    {snapshot : Snapshot}
    (captured : (Command.read.executedIn (operator.at Bench.station) unit world).1 =
      .ok (.snapshot snapshot)) (copy : RegisterCopy) :
    snapshot.word copy = world.2.value copy := by
  rw [executedIn_read] at captured
  obtain ⟨msr, first, captured₁⟩ := bind_eq_ok captured
  obtain ⟨mmio, second, captured₂⟩ := bind_eq_ok captured₁
  cases captured₂
  cases copy with
  | msr => exact Cell.read_eq_ok first
  | mmio => exact Cell.read_eq_ok second

theorem captured_of_readable (operator : Operator ω) (unit : PowerUnit) {world : ω × Bench}
    (readable : ∀ copy, (world.2.cell copy).readFails (world.2.cell copy).reads = false) :
    ∃ snapshot, (Command.read.executedIn (operator.at Bench.station) unit world).1 =
      .ok (.snapshot snapshot) := by
  have read (copy : RegisterCopy) : (world.2.cell copy).read.1 = .ok (world.2.value copy) := by
    unfold Cell.read
    rw [readable copy]
    rfl
  have first : world.2.msr.read.1 = _ := read .msr
  have second : world.2.mmio.read.1 = _ := read .mmio
  rw [executedIn_read, first, second]
  exact ⟨_, rfl⟩

/-! ## Writing back -/

def writeOption : RegisterCopy → String
  | .msr => "--write-msr"
  | .mmio => "--write-mmio"

theorem parse_write (copy : RegisterCopy) (value : Word) :
    parse [writeOption copy, value.text] = .ok (.write copy value) := by
  cases copy <;> simp [parse, writeOption, Quantity.word_text, Except.map]

theorem parse_writeZone (limits : ZoneLimits) :
    parse ["--write-powercap", Text.decimal limits.first.toNat,
      Text.decimal limits.second.toNat] = .ok (.writeZone limits) := by
  unfold parse
  simp only [Quantity.microwatts_decimal]
  rfl

/-- The text shown for a captured copy is taken by a write to it, and that leaves the captured word,
whatever the register holds by then in the bits that are not stuck, as after any writes to it; and
the decimals of both limits are taken by a write of the power zone, after which it reads as
these. -/
theorem captured_is_written_back (operator : Operator ω) (unit : PowerUnit) (world : ω × Bench) :
    let handler := operator.at Bench.station
    let captured := (Command.read.executedIn handler unit world).2
    ((∀ copy, (world.2.cell copy).readFails (world.2.cell copy).reads = false) →
      ∃ snapshot, (Command.read.executedIn handler unit world).1 = .ok (.snapshot snapshot)) ∧
    (∀ snapshot, (Command.read.executedIn handler unit world).1 = .ok (.snapshot snapshot) →
      ∀ copy, snapshot.word copy = (world.2.cell copy).value ∧
        ∃ text, Snapshot.linesFor (Snapshot.key copy) snapshot.render =
            [(Snapshot.key copy ++ "=" ++ text).toList] ∧
          parse [writeOption copy, text] = .ok (.write copy (snapshot.word copy)) ∧
          (∀ later : ω × Bench, (later.2.cell copy).stuck = (world.2.cell copy).stuck →
            (later.2.cell copy).value &&& (world.2.cell copy).stuck =
              (world.2.cell copy).value &&& (world.2.cell copy).stuck →
            (later.2.cell copy).writeFails (later.2.cell copy).writes = false →
              Lands operator unit copy (snapshot.word copy) later) ∧
          ∀ words, let later := (captured.1, captured.2.afterWrites copy words)
            (later.2.cell copy).writeFails (later.2.cell copy).writes = false →
              Lands operator unit copy (snapshot.word copy) later) ∧
    ∀ limits : ZoneLimits,
      parse ["--write-powercap", Text.decimal limits.first.toNat,
        Text.decimal limits.second.toNat] = .ok (.writeZone limits) ∧
      ((world.2.zone.write world.2.host limits).1 = .ok () →
        let written := (Command.writeZone limits).executedIn handler unit world
        written.1 = .ok .done ∧ written.2.2.zone.read written.2.2.host = .ok limits) := by
  intro handler captured
  refine ⟨captured_of_readable operator unit, ?_, ?_⟩
  · intro snapshot read copy
    have shown : snapshot.word copy = (world.2.cell copy).value := captured_word read copy
    have whenever (later : ω × Bench) (stuck : (later.2.cell copy).stuck = (world.2.cell copy).stuck)
        (held : (later.2.cell copy).value &&& (world.2.cell copy).stuck =
          (world.2.cell copy).value &&& (world.2.cell copy).stuck)
        (able : (later.2.cell copy).writeFails (later.2.cell copy).writes = false) :
        Lands operator unit copy (snapshot.word copy) later := by
      rw [← shown, ← stuck] at held
      exact lands_of_held held able
    refine ⟨shown, _, snapshot.linesFor_render copy, parse_write copy _, whenever, ?_⟩
    intro words later able
    have alike : Bench.StuckAlike world.2 later.2 :=
      (Bench.run_stuckAlike operator (Command.read.execute unit) { world }).trans
        (Bench.afterWrites_stuckAlike captured.2 copy words)
    have stuck : (later.2.cell copy).stuck = (world.2.cell copy).stuck := alike.stuck copy
    refine whenever later stuck ?_ able
    rw [← stuck]
    exact (alike.held copy).trans (congrArg (_ &&& ·) stuck.symm)
  · intro limits
    refine ⟨parse_writeZone limits, ?_⟩
    intro landed written
    have read := (world.2.zone.write_wrote world.2.host limits).read_eq landed
    unfold written
    rw [executedIn_writeZone]
    exact ⟨congrArg (Except.map fun _ => CommandReply.done) landed, read⟩

/-- A bench whose copies are free but for one bit of the chipset's. -/
def lockedBench : Bench where
  msr := { place := "MSR", value := 0x00DF81B800420000#64 }
  mmio := { place := "MMIO", value := 0x80DF81B800420000#64, stuck := 0x8000000000000000#64 }
  zone := ⟨⟨"", []⟩⟩
  host := .empty

/-- What a snapshot of it leaves, and then what two writes to the chipset's copy leave. -/
def lockedCaptured : Except Fault CommandReply × Script × Bench :=
  Command.read.executedIn (Script.operator.at Bench.station) .eighthWatt (⟨[], []⟩, lockedBench)

def lockedLater : Bench := lockedCaptured.2.2.afterWrites .mmio [0#64, 0x0000000000000001#64]

/-- The writes change the chipset's copy, and what was captured before is written back. -/
theorem changed_copy_is_written_back :
    (lockedLater.cell .mmio).value = 0x8000000000000001#64 ∧
      ∃ snapshot text, lockedCaptured.1 = .ok (.snapshot snapshot) ∧
        Snapshot.linesFor "MMIO" snapshot.render = [("MMIO" ++ "=" ++ text).toList] ∧
        parse ["--write-mmio", text] = .ok (.write .mmio 0x80DF81B800420000#64) ∧
        Lands Script.operator .eighthWatt .mmio 0x80DF81B800420000#64 (⟨[], []⟩, lockedLater) := by
  obtain ⟨readable, written, _⟩ := captured_is_written_back Script.operator .eighthWatt
    (⟨[], []⟩, lockedBench)
  obtain ⟨snapshot, read⟩ := readable fun copy => by cases copy <;> rfl
  obtain ⟨shown, text, line, parsed, _, lands⟩ := written snapshot read .mmio
  have value : snapshot.word .mmio = 0x80DF81B800420000#64 := shown
  rw [value] at parsed lands
  exact ⟨by decide +kernel, snapshot, text, read, line, parsed,
    lands [0#64, 0x0000000000000001#64] (by decide +kernel)⟩

end Command
end PackagePower
