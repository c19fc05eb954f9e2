import PackagePower.Program.Station
import PackagePower.Proofs.Session.Trace

/-!
# A bench under a trace

What the events of a run do to the registers of a bench, whoever the operator is. Reading, asking,
logging and the power zone leave them alone; a read that succeeds reports the register as it is;
a step that confirms changes at most the register it is about.
-/

namespace PackagePower

namespace Cell

theorem stuck_read (cell : Cell) : cell.read.2.stuck = cell.stuck := by
  unfold read
  split <;> rfl

theorem stuck_write (cell : Cell) (word : Word) : (cell.write word).2.stuck = cell.stuck := by
  unfold write
  split <;> rfl

theorem read_eq_ok {cell : Cell} {word : Word} (read : cell.read.1 = .ok word) :
    word = cell.value := by
  unfold Cell.read at read
  split at read
  · cases read
  · exact (Except.ok.inj read).symm

theorem value_of_landed {cell : Cell} {word : Word} (landed : (cell.write word).1 = .ok ()) :
    (cell.write word).2.value = cell.settled word := by
  unfold write at landed ⊢
  split at landed
  · cases landed
  · rename_i succeeds
    rw [if_neg succeeds]

theorem value_of_failed {cell : Cell} {word : Word} {fault : Fault}
    (failed : (cell.write word).1 = .error fault) : (cell.write word).2.value = cell.value := by
  unfold write at failed ⊢
  split at failed
  · rename_i fails
    rw [if_pos fails]
  · cases failed

end Cell

namespace Bench

/-- What a register holds. -/
def value (bench : Bench) (copy : RegisterCopy) : Word := (bench.cell copy).value

/-- The bits of a register that no write changes. -/
def stuck (bench : Bench) (copy : RegisterCopy) : Word := (bench.cell copy).stuck

/-- All registers are as before. -/
structure Keeps (before after : Bench) : Prop where
  value : ∀ copy, after.value copy = before.value copy
  stuck : ∀ copy, after.stuck copy = before.stuck copy

/-- `word` was written to a register, and the others are as before. -/
structure Takes (before : Bench) (copy : RegisterCopy) (word : Word) (after : Bench) : Prop where
  value : after.value copy = (before.cell copy).settled word
  other : ∀ other, other ≠ copy → after.value other = before.value other
  stuck : ∀ copy, after.stuck copy = before.stuck copy

theorem Keeps.refl (bench : Bench) : Keeps bench bench := ⟨fun _ => rfl, fun _ => rfl⟩

theorem Keeps.trans {first second third : Bench} (before : Keeps first second)
    (after : Keeps second third) : Keeps first third where
  value copy := (after.value copy).trans (before.value copy)
  stuck copy := (after.stuck copy).trans (before.stuck copy)

theorem Takes.then {first second third : Bench} {copy : RegisterCopy} {word : Word}
    (before : Takes first copy word second) (after : Keeps second third) :
    Takes first copy word third where
  value := (after.value copy).trans before.value
  other other apart := (after.value other).trans (before.other other apart)
  stuck copy := (after.stuck copy).trans (before.stuck copy)

theorem Keeps.takes {first second third : Bench} {copy : RegisterCopy} {word : Word}
    (before : Keeps first second) (after : Takes second copy word third) :
    Takes first copy word third where
  value := by
    rw [after.value]
    change (second.value copy &&& second.stuck copy) ||| (word &&& ~~~second.stuck copy) = _
    rw [before.value, before.stuck]
    rfl
  other other apart := (after.other other apart).trans (before.value other)
  stuck copy := (after.stuck copy).trans (before.stuck copy)

@[simp] theorem cell_withCell_self (bench : Bench) (copy : RegisterCopy) (cell : Cell) :
    (bench.withCell copy cell).cell copy = cell := by
  cases copy <;> rfl

theorem cell_withCell_other (bench : Bench) {copy other : RegisterCopy} (cell : Cell)
    (apart : other ≠ copy) : (bench.withCell copy cell).cell other = bench.cell other := by
  cases copy <;> cases other <;> first | rfl | exact (apart rfl).elim

theorem keeps_withCell {bench : Bench} {copy : RegisterCopy} (cell : Cell)
    (value : cell.value = bench.value copy) (stuck : cell.stuck = bench.stuck copy) :
    Keeps bench (bench.withCell copy cell) := by
  constructor <;> intro other <;> by_cases same : other = copy
  · subst same
    exact (congrArg Cell.value (cell_withCell_self _ _ _)).trans value
  · exact congrArg Cell.value (cell_withCell_other _ _ same)
  · subst same
    exact (congrArg Cell.stuck (cell_withCell_self _ _ _)).trans stuck
  · exact congrArg Cell.stuck (cell_withCell_other _ _ same)

theorem takes_withCell {bench : Bench} {copy : RegisterCopy} {word : Word} (cell : Cell)
    (value : cell.value = (bench.cell copy).settled word) (stuck : cell.stuck = bench.stuck copy) :
    Takes bench copy word (bench.withCell copy cell) := by
  refine ⟨(congrArg Cell.value (cell_withCell_self _ _ _)).trans value, ?_, ?_⟩
  · intro other apart
    exact congrArg Cell.value (cell_withCell_other _ _ apart)
  · intro other
    by_cases same : other = copy
    · subst same
      exact (congrArg Cell.stuck (cell_withCell_self _ _ _)).trans stuck
    · exact congrArg Cell.stuck (cell_withCell_other _ _ same)

theorem read_keeps (bench : Bench) (copy : RegisterCopy) :
    Keeps bench (station.read copy bench).2 :=
  keeps_withCell (bench.cell copy).read.2 (Cell.value_read _) (Cell.stuck_read _)

theorem write_keeps {bench : Bench} {copy : RegisterCopy} {word : Word} {fault : Fault}
    (failed : (station.write copy word bench).1 = .error fault) :
    Keeps bench (station.write copy word bench).2 :=
  keeps_withCell ((bench.cell copy).write word).2 (Cell.value_of_failed failed)
    (Cell.stuck_write _ _)

theorem write_takes {bench : Bench} {copy : RegisterCopy} {word : Word}
    (landed : (station.write copy word bench).1 = .ok ()) :
    Takes bench copy word (station.write copy word bench).2 :=
  takes_withCell ((bench.cell copy).write word).2 (Cell.value_of_landed landed)
    (Cell.stuck_write _ _)

end Bench

namespace Session
open Bench (Keeps Takes)

variable {ω : Type} {operator : Operator ω} {world last : ω × Bench}

/-- Only a write to a register changes one. -/
theorem answer_keeps (operator : Operator ω) (world : ω × Bench) (action : Action)
    (other : ∀ copy word, action ≠ .write copy word) :
    Keeps world.2 ((operator.at Bench.station).answer action world).2.2 := by
  cases action with
  | ask | decide | readZone | writeZone | warn => exact ⟨fun _ => rfl, fun _ => rfl⟩
  | read copy => exact Bench.read_keeps world.2 copy
  | write copy word => exact (other copy word rfl).elim

theorem answer_write {copy : RegisterCopy} {word : Word} {reply : Except Fault Unit}
    {next : ω × Bench}
    (answered : (operator.at Bench.station).answer (.write copy word) world = (reply, next)) :
    (reply = .ok () → Takes world.2 copy word next.2) ∧
      ∀ fault, reply = .error fault → Keeps world.2 next.2 := by
  have left : (Bench.station.write copy word world.2).2 = next.2 :=
    congrArg (fun answer => answer.2.2) answered
  rw [← left]
  constructor
  · rintro rfl
    exact Bench.write_takes (congrArg Prod.fst answered)
  · rintro fault rfl
    exact Bench.write_keeps (congrArg Prod.fst answered)

/-- Where nothing is decided or written no register changes, and what was read is still there. -/
theorem replays_quiet {events : List Event} (quiet : ∀ event ∈ events, event.Within Action.Quiet)
    (replays : (operator.at Bench.station).Replays world events last) :
    Keeps world.2 last.2 ∧
      ∀ reading, readingOf reading ∈ events → reading.2 = last.2.value reading.1 := by
  have keeps {events : List Event} {world : ω × Bench}
      (quiet : ∀ event ∈ events, event.Within Action.Quiet)
      (replays : (operator.at Bench.station).Replays world events last) : Keeps world.2 last.2 := by
    apply Handler.replays_relates (fun before after : ω × Bench => Keeps before.2 after.2)
      (fun _ => .refl _) Keeps.trans _ quiet replays
    intro action permitted world
    apply answer_keeps
    rintro copy word rfl
    exact permitted
  refine ⟨keeps quiet replays, ?_⟩
  intro reading member
  obtain ⟨before, after, middle, rfl, _, answered, later⟩ := Handler.replays_mem member replays
  have kept := keeps (fun event inside => quiet event (List.mem_append_right before inside)) later
  exact (Cell.read_eq_ok answered).trans (kept.value reading.1).symm

/-- A step that confirms changes nothing, or the register of a write that was approved. -/
theorem replays_decided {pending : PendingWrite} {events : List Event}
    (decided : Decided pending events)
    (replays : (operator.at Bench.station).Replays world events last) :
    Keeps world.2 last.2 ∨
      ∃ copy current next tail, pending = .register copy current next ∧
        events = .performed (.decide pending) true :: tail ∧ Takes world.2 copy next last.2 := by
  cases decided with
  | refused logs =>
    obtain ⟨middle, answered, rest⟩ := replays
    have asked := answer_keeps operator world (.decide pending) nofun
    rw [answered] at asked
    exact .inl (asked.trans (replays_quiet (quiet_of_logs logs) rest).1)
  | approved reply logs =>
    obtain ⟨middle, answered, rest⟩ := replays
    have asked := answer_keeps operator world (.decide pending) nofun
    rw [answered] at asked
    cases pending with
    | zone limits =>
      obtain ⟨after, answered, rest⟩ := rest
      have written := answer_keeps operator middle (.writeZone limits) nofun
      rw [answered] at written
      exact .inl (asked.trans (written.trans (replays_quiet (quiet_of_logs logs) rest).1))
    | register copy current next =>
      obtain ⟨after, answered, rest⟩ := rest
      have logged := (replays_quiet (quiet_of_logs logs) rest).1
      obtain ⟨takes, keeps⟩ := answer_write answered
      cases reply with
      | ok =>
        exact .inr ⟨copy, current, next, _, rfl, rfl, (asked.takes (takes rfl)).then logged⟩
      | error fault => exact .inl (asked.trans ((keeps fault rfl).trans logged))

end Session
end PackagePower
