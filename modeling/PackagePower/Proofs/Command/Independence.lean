import PackagePower.Command
import PackagePower.Proofs.Device.Alike
import PackagePower.Proofs.Device.Bench
import PackagePower.Proofs.Program.Attempt
import PackagePower.Proofs.Program.Only

/-!
# Commands that stand alone

A command is addressed to one copy of the limit, to the power zone, or, if it only reads, to
nothing. It leaves every target it is not addressed to as it is, and what it comes to is decided by
the one it is addressed to. So of a sequence of commands each target notices those addressed to it,
in their order, and commands to different targets can be exchanged.

How often a register was read is no part of its state here: a write neither looks at it nor
changes it.
-/

namespace PackagePower

/-- What a command can be addressed to. -/
inductive Target where
  | register (copy : RegisterCopy)
  | zone
  deriving DecidableEq

/-- Two cells that answer all writes the same. -/
structure Cell.WrittenAlike (cell other : Cell) : Prop where
  place : cell.place = other.place
  value : cell.value = other.value
  stuck : cell.stuck = other.stuck
  writeFails : cell.writeFails = other.writeFails
  writes : cell.writes = other.writes

namespace Cell.WrittenAlike

variable {cell other : Cell}

theorem refl (cell : Cell) : cell.WrittenAlike cell := ⟨rfl, rfl, rfl, rfl, rfl⟩

theorem symm (alike : cell.WrittenAlike other) : other.WrittenAlike cell :=
  ⟨alike.place.symm, alike.value.symm, alike.stuck.symm, alike.writeFails.symm, alike.writes.symm⟩

theorem trans {third : Cell} (first : cell.WrittenAlike other) (second : other.WrittenAlike third) :
    cell.WrittenAlike third :=
  ⟨first.place.trans second.place, first.value.trans second.value, first.stuck.trans second.stuck,
    first.writeFails.trans second.writeFails, first.writes.trans second.writes⟩

theorem after_read (cell : Cell) : cell.WrittenAlike cell.read.2 := by
  unfold Cell.read
  dsimp only
  split <;> exact ⟨rfl, rfl, rfl, rfl, rfl⟩

theorem write (alike : cell.WrittenAlike other) (word : Word) :
    (cell.write word).1 = (other.write word).1 ∧
      (cell.write word).2.WrittenAlike (other.write word).2 := by
  obtain ⟨place, value, stuck, writeFails, writes⟩ := alike
  unfold Cell.write Cell.settled
  rw [place, value, stuck, writeFails, writes]
  split <;> exact ⟨rfl, ⟨rfl, rfl, rfl, rfl, rfl⟩⟩

end Cell.WrittenAlike

namespace Target

/-- Both benches have the target in the same state. -/
def SameIn : Target → Bench → Bench → Prop
  | register copy, bench, other => (bench.cell copy).WrittenAlike (other.cell copy)
  | zone, bench, other => bench.zone = other.zone ∧ bench.zone.Alike bench.host other.host

namespace SameIn

variable {target : Target} {bench other : Bench}

theorem refl (target : Target) (bench : Bench) : target.SameIn bench bench := by
  cases target with
  | register copy => exact Cell.WrittenAlike.refl _
  | zone => exact ⟨rfl, .refl _ _⟩

theorem symm (same : target.SameIn bench other) : target.SameIn other bench := by
  cases target with
  | register copy => exact Cell.WrittenAlike.symm same
  | zone =>
    obtain ⟨directory, alike⟩ := same
    exact ⟨directory.symm, directory ▸ alike.symm⟩

theorem trans {third : Bench} (first : target.SameIn bench other)
    (second : target.SameIn other third) : target.SameIn bench third := by
  cases target with
  | register copy => exact Cell.WrittenAlike.trans first second
  | zone =>
    obtain ⟨directory, alike⟩ := first
    obtain ⟨directory', alike'⟩ := second
    exact ⟨directory.trans directory', alike.trans (directory ▸ alike')⟩

theorem withCell {copy : RegisterCopy} {cell : Cell} (bench : Bench)
    (alike : target = .register copy → (bench.cell copy).WrittenAlike cell) :
    target.SameIn bench (bench.withCell copy cell) := by
  cases target with
  | zone => cases copy <;> exact ⟨rfl, .refl _ _⟩
  | register other =>
    change (bench.cell other).WrittenAlike ((bench.withCell copy cell).cell other)
    by_cases same : other = copy
    · subst same
      rw [Bench.cell_withCell_self]
      exact alike rfl
    · rw [Bench.cell_withCell_other bench cell same]
      exact Cell.WrittenAlike.refl _

end SameIn
end Target

/-! ## One command -/

def Action.target? : Action → Option Target
  | .write copy _ => some (.register copy)
  | .writeZone _ => some .zone
  | _ => none

namespace Command

/-- What a command is addressed to. -/
def target? : Command → Option Target
  | .read => none
  | .write copy _ => some (.register copy)
  | .writeZone _ => some .zone

/-- Runs one command by itself: its outcome and the world it leaves. -/
def executedIn {σ : Type} (handler : Handler σ) (unit : PowerUnit) (command : Command) (world : σ) :
    Except Fault CommandReply × σ :=
  let (outcome, run) := (command.execute unit).run handler { world }
  (outcome, run.world)

/-- Runs commands one after the other: each with its outcome, and the world they leave. -/
def executed {σ : Type} (handler : Handler σ) (unit : PowerUnit) :
    List Command → σ → List (Command × Except Fault CommandReply) × σ
  | [], world => ([], world)
  | command :: rest, world =>
    let (outcome, world) := command.executedIn handler unit world
    let (others, world) := executed handler unit rest world
    ((command, outcome) :: others, world)

variable {ω ω' : Type} {unit : PowerUnit}

theorem execute_only (unit : PowerUnit) (command : Command) : (command.execute unit).Only
    fun action => action.target? = none ∨ action.target? = command.target? := by
  cases command with
  | read =>
    unfold execute
    rw [map_eq_pure_bind]
    refine .bind (.bind (Program.Only.act (.inl rfl)) fun _ =>
      .bind (Program.Only.act (.inl rfl)) fun _ => .pure _) fun _ => .pure _
  | write copy value => exact .bind (Program.Only.act (.inr rfl)) fun _ => .pure _
  | writeZone limits => exact .bind (Program.Only.act (.inr rfl)) fun _ => .pure _

theorem answer_elsewhere (operator : Operator ω) {action : Action} {target : Target}
    (elsewhere : action.target? ≠ some target) (world : ω × Bench) :
    target.SameIn world.2 ((operator.at Bench.station).answer action world).2.2 := by
  cases action with
  | ask | decide | readZone | warn => exact .refl _ _
  | read copy => exact .withCell world.2 fun _ => .after_read _
  | write copy value => exact .withCell world.2 fun same => (elsewhere (same ▸ rfl)).elim
  | writeZone limits =>
    cases target with
    | register copy => cases copy <;> exact Cell.WrittenAlike.refl _
    | zone => exact (elsewhere rfl).elim

/-- A relation of worlds that each allowed action keeps to relates those around a command. -/
theorem executedIn_relates {σ : Type} {handler : Handler σ} {allowed : Action → Prop}
    {command : Command} (only : (command.execute unit).Only allowed) (relates : σ → σ → Prop)
    (refl : ∀ world, relates world world)
    (trans : ∀ {first second third}, relates first second → relates second third →
      relates first third)
    (each : ∀ action, allowed action → ∀ world, relates world (handler.answer action world).2)
    (world : σ) : relates world (command.executedIn handler unit world).2 := by
  obtain ⟨events, trace, _, replays⟩ := Program.run_trace handler
    (ExceptT.run (command.execute unit)) { world }
  unfold executedIn
  dsimp only
  rw [← Attempt.run_snd]
  exact Handler.replays_relates relates refl trans each (only.within trace) replays

/-- A command leaves every target it is not addressed to as it is. -/
theorem executedIn_elsewhere (operator : Operator ω) (unit : PowerUnit) (command : Command)
    (target : Target) (elsewhere : command.target? ≠ some target) (world : ω × Bench) :
    target.SameIn world.2 (command.executedIn (operator.at Bench.station) unit world).2.2 := by
  apply executedIn_relates (execute_only unit command) (fun before after : ω × Bench =>
    target.SameIn before.2 after.2) (fun _ => .refl _ _) Target.SameIn.trans
  intro action allowed world
  apply answer_elsewhere
  rcases allowed with nowhere | there
  · rw [nowhere]
    exact nofun
  · rw [there]
    exact elsewhere

theorem run_then_done {σ : Type} (attempt : Attempt Unit) (handler : Handler σ) (run : Run σ) :
    (attempt >>= fun _ => pure CommandReply.done).run handler run =
      ((attempt.run handler run).1.map fun _ => .done, (attempt.run handler run).2) := by
  rw [Attempt.run_bind]
  rcases attempt.run handler run with ⟨_ | _, after⟩ <;> rfl

/-- A write comes to what its action replies. -/
theorem executedIn_write {σ : Type} (handler : Handler σ) (copy : RegisterCopy) (value : Word)
    (world : σ) : (Command.write copy value).executedIn handler unit world =
      ((handler.answer (.write copy value) world).1.map fun _ => .done,
        (handler.answer (.write copy value) world).2) := by
  unfold executedIn execute
  rw [run_then_done]
  rfl

theorem executedIn_writeZone {σ : Type} (handler : Handler σ) (limits : ZoneLimits) (world : σ) :
    (Command.writeZone limits).executedIn handler unit world =
      ((handler.answer (.writeZone limits) world).1.map fun _ => .done,
        (handler.answer (.writeZone limits) world).2) := by
  unfold executedIn execute
  rw [run_then_done]
  rfl

/-- On benches with its target in the same state a command comes to the same, and leaves the target
in the same state. -/
theorem executedIn_same (operator : Operator ω) (operator' : Operator ω') (unit unit' : PowerUnit)
    {command : Command} {target : Target} (addressed : command.target? = some target)
    {world : ω × Bench} {world' : ω' × Bench} (same : target.SameIn world.2 world'.2) :
    (command.executedIn (operator.at Bench.station) unit world).1 =
        (command.executedIn (operator'.at Bench.station) unit' world').1 ∧
      target.SameIn (command.executedIn (operator.at Bench.station) unit world).2.2
        (command.executedIn (operator'.at Bench.station) unit' world').2.2 := by
  cases command with
  | read => cases addressed
  | write copy value =>
    cases addressed
    obtain ⟨reply, alike⟩ := Cell.WrittenAlike.write same value
    rw [executedIn_write, executedIn_write]
    refine ⟨congrArg (Except.map fun _ => CommandReply.done) reply, ?_⟩
    cases copy <;> exact alike
  | writeZone limits =>
    cases addressed
    obtain ⟨_, msr, mmio, zone, host⟩ := world
    obtain ⟨_, msr', mmio', zone', host'⟩ := world'
    obtain ⟨directory, alike⟩ := same
    cases directory
    obtain ⟨reply, alike'⟩ := alike.write limits
    rw [executedIn_writeZone, executedIn_writeZone]
    exact ⟨congrArg (Except.map fun _ => CommandReply.done) reply, rfl, alike'⟩

/-! ## Sequences of commands -/

abbrev AddressedTo (target : Target) (command : Command) : Prop := command.target? = some target

theorem executed_cons {σ : Type} (handler : Handler σ) (unit : PowerUnit) (command : Command)
    (rest : List Command) (world : σ) : executed handler unit (command :: rest) world =
      ((command, (command.executedIn handler unit world).1) ::
          (executed handler unit rest (command.executedIn handler unit world).2).1,
        (executed handler unit rest (command.executedIn handler unit world).2).2) := rfl

theorem executed_append {σ : Type} (handler : Handler σ) (unit : PowerUnit)
    (first second : List Command) (world : σ) :
    executed handler unit (first ++ second) world =
      ((executed handler unit first world).1 ++
          (executed handler unit second (executed handler unit first world).2).1,
        (executed handler unit second (executed handler unit first world).2).2) := by
  induction first generalizing world with
  | nil => rfl
  | cons command rest ih => rw [List.cons_append, executed_cons, ih, executed_cons]; rfl

/-- A target notices the commands addressed to it, as if there were no others. -/
theorem executed_filter (operator : Operator ω) (operator' : Operator ω') (unit unit' : PowerUnit)
    (target : Target) (commands : List Command) {world : ω × Bench} {world' : ω' × Bench}
    (same : target.SameIn world.2 world'.2) :
    (executed (operator.at Bench.station) unit commands world).1.filter
          (fun executed => AddressedTo target executed.1) =
        (executed (operator'.at Bench.station) unit'
          (commands.filter fun command => AddressedTo target command) world').1 ∧
      target.SameIn (executed (operator.at Bench.station) unit commands world).2.2
        (executed (operator'.at Bench.station) unit'
          (commands.filter fun command => AddressedTo target command) world').2.2 := by
  induction commands generalizing world world' with
  | nil => exact ⟨rfl, same⟩
  | cons command rest ih =>
    rw [executed_cons]
    by_cases addressed : AddressedTo target command
    · obtain ⟨outcome, left⟩ := executedIn_same operator operator' unit unit' addressed same
      obtain ⟨outcomes, last⟩ := ih left
      rw [List.filter_cons_of_pos (by simpa using addressed),
        List.filter_cons_of_pos (by simpa using addressed), executed_cons, outcome, outcomes]
      exact ⟨rfl, last⟩
    · have kept := executedIn_elsewhere operator unit command target addressed world
      obtain ⟨outcomes, last⟩ := ih (kept.symm.trans same)
      rw [List.filter_cons_of_neg (by simpa using addressed),
        List.filter_cons_of_neg (by simpa using addressed)]
      exact ⟨outcomes, last⟩

/-- Writes to different targets can be exchanged: nothing in the world tells their order. -/
theorem executedIn_comm (operator : Operator ω) (unit : PowerUnit) {first second : Command}
    {target other : Target} (addressed : first.target? = some target)
    (addressed' : second.target? = some other) (apart : target ≠ other) (world : ω × Bench) :
    let handler := operator.at Bench.station
    (second.executedIn handler unit (first.executedIn handler unit world).2).1 =
        (second.executedIn handler unit world).1 ∧
      (first.executedIn handler unit (second.executedIn handler unit world).2).1 =
        (first.executedIn handler unit world).1 ∧
      (second.executedIn handler unit (first.executedIn handler unit world).2).2 =
        (first.executedIn handler unit (second.executedIn handler unit world).2).2 := by
  intro handler
  have kept {command : Command} {other : Target} (elsewhere : command.target? ≠ some other) :
      other.SameIn (command.executedIn handler unit world).2.2 world.2 :=
    (executedIn_elsewhere operator unit command other elsewhere world).symm
  refine ⟨?_, ?_, ?_⟩
  · refine (executedIn_same operator operator unit unit addressed' (kept ?_)).1
    rw [addressed]
    exact fun same => apart (Option.some.inj same)
  · refine (executedIn_same operator operator unit unit addressed (kept ?_)).1
    rw [addressed']
    exact fun same => apart (Option.some.inj same).symm
  · -- Each write replaces its own part of the bench, so both orders build the same one.
    cases first with
    | read => cases addressed
    | write copy value =>
      cases second with
      | read => cases addressed'
      | write copy' value' =>
        cases addressed
        cases addressed'
        simp only [executedIn_write]
        cases copy <;> cases copy' <;> first | rfl | exact (apart rfl).elim
      | writeZone limits =>
        simp only [executedIn_write, executedIn_writeZone]
        cases copy <;> rfl
    | writeZone limits =>
      cases second with
      | read => cases addressed'
      | write copy value =>
        simp only [executedIn_write, executedIn_writeZone]
        cases copy <;> rfl
      | writeZone limits' =>
        cases addressed
        cases addressed'
        exact (apart rfl).elim

/-- In a sequence, too: what stands before and behind two writes to different targets comes to the
same in either order of them, and so do the two. -/
theorem executed_swap (operator : Operator ω) (unit : PowerUnit) (before after : List Command)
    {first second : Command} {target other : Target} (addressed : first.target? = some target)
    (addressed' : second.target? = some other) (apart : target ≠ other) (world : ω × Bench) :
    let handler := operator.at Bench.station
    ∃ outcome outcome' closing last,
      executed handler unit (before ++ first :: second :: after) world =
        ((executed handler unit before world).1 ++
          (first, outcome) :: (second, outcome') :: closing, last) ∧
      executed handler unit (before ++ second :: first :: after) world =
        ((executed handler unit before world).1 ++
          (second, outcome') :: (first, outcome) :: closing, last) := by
  intro handler
  let middle := (executed handler unit before world).2
  let left := (second.executedIn handler unit (first.executedIn handler unit middle).2).2
  obtain ⟨same, same', swapped⟩ := executedIn_comm operator unit addressed addressed' apart middle
  refine ⟨(first.executedIn handler unit middle).1, (second.executedIn handler unit middle).1,
    (executed handler unit after left).1, (executed handler unit after left).2, ?_, ?_⟩
  · rw [executed_append, executed_cons, executed_cons, same]
  · rw [executed_append, executed_cons, executed_cons, same', ← swapped]

/-! ## What no command changes -/

/-- Both registers hold the same words and both constraints read the same. -/
structure HoldsSame (before after : Bench) : Prop where
  register : ∀ copy, after.value copy = before.value copy
  constraint : ∀ index, after.zone.readConstraint after.host index =
    before.zone.readConstraint before.host index

theorem value_of_same {copy : RegisterCopy} {before after : Bench}
    (same : (Target.register copy).SameIn before after) : after.value copy = before.value copy :=
  (Cell.WrittenAlike.value same).symm

theorem constraint_of_same {before after : Bench} (same : Target.zone.SameIn before after)
    (index : LimitIndex) : after.zone.readConstraint after.host index =
      before.zone.readConstraint before.host index := by
  obtain ⟨directory, alike⟩ := same
  rw [alike.readConstraint index, directory]

theorem read_holds (operator : Operator ω) (unit : PowerUnit) (world : ω × Bench) :
    HoldsSame world.2 (Command.read.executedIn (operator.at Bench.station) unit world).2.2 := by
  have same (target : Target) : target.SameIn world.2
      (Command.read.executedIn (operator.at Bench.station) unit world).2.2 :=
    executedIn_elsewhere operator unit .read target nofun world
  exact ⟨fun copy => value_of_same (same (.register copy)), constraint_of_same (same .zone)⟩

theorem failed_holds {operator : Operator ω} {command : Command} {world : ω × Bench} {fault : Fault}
    (failed : (command.executedIn (operator.at Bench.station) unit world).1 = .error fault) :
    HoldsSame world.2 (command.executedIn (operator.at Bench.station) unit world).2.2 := by
  have fault_of_map {reply : Except Fault Unit}
      (failed : reply.map (fun _ => CommandReply.done) = .error fault) : reply = .error fault := by
    cases reply <;> cases failed
    rfl
  cases command with
  | read => exact read_holds operator unit world
  | write copy value =>
    have zone := executedIn_elsewhere operator unit (.write copy value) .zone nofun world
    rw [executedIn_write] at failed zone ⊢
    exact ⟨(Bench.write_keeps (fault_of_map failed)).value, constraint_of_same zone⟩
  | writeZone limits =>
    have register (copy : RegisterCopy) :=
      executedIn_elsewhere operator unit (.writeZone limits) (.register copy) nofun world
    rw [executedIn_writeZone] at failed
    have undone := (world.2.zone.write_wrote world.2.host limits).undoes (fault_of_map failed)
    refine ⟨fun copy => value_of_same (register copy), ?_⟩
    rw [executedIn_writeZone]
    exact undone.1

/-- Each target answers the commands addressed to it by itself; a command that fails, or only reads,
changes nothing; and writes to different targets can be exchanged. -/
theorem commands_stand_alone (operator : Operator ω) (unit : PowerUnit) (commands : List Command)
    (world : ω × Bench) :
    let handler := operator.at Bench.station
    (∀ (ω' : Type) (operator' : Operator ω') (unit' : PowerUnit) (commands' : List Command)
        (world' : ω' × Bench) (target : Target),
      commands.filter (fun command => AddressedTo target command) =
          commands'.filter (fun command => AddressedTo target command) →
        target.SameIn world.2 world'.2 →
        (executed handler unit commands world).1.filter
              (fun executed => AddressedTo target executed.1) =
            (executed (operator'.at Bench.station) unit' commands' world').1.filter
              (fun executed => AddressedTo target executed.1) ∧
          target.SameIn (executed handler unit commands world).2.2
            (executed (operator'.at Bench.station) unit' commands' world').2.2) ∧
    (∀ (command : Command) (fault : Fault),
      (command.executedIn handler unit world).1 = .error fault →
        HoldsSame world.2 (command.executedIn handler unit world).2.2) ∧
    HoldsSame world.2 (Command.read.executedIn handler unit world).2.2 ∧
    ∀ before first second after target other, first.target? = some target →
      second.target? = some other → target ≠ other →
      ∃ outcome outcome' closing last,
        executed handler unit (before ++ first :: second :: after) world =
          ((executed handler unit before world).1 ++
            (first, outcome) :: (second, outcome') :: closing, last) ∧
        executed handler unit (before ++ second :: first :: after) world =
          ((executed handler unit before world).1 ++
            (second, outcome') :: (first, outcome) :: closing, last) := by
  intro handler
  refine ⟨?_, fun command fault failed => failed_holds failed, read_holds operator unit world, ?_⟩
  · intro ω' operator' unit' commands' world' target addressed same
    -- Both sequences are compared with the commands addressed to the target alone.
    obtain ⟨outcomes, last⟩ := executed_filter operator operator' unit unit' target commands same
    obtain ⟨outcomes', last'⟩ := executed_filter operator' operator' unit' unit' target commands'
      (.refl target world'.2)
    rw [addressed] at outcomes last
    exact ⟨outcomes.trans outcomes'.symm, last.trans last'.symm⟩
  · intro before first second after target other addressed addressed' apart
    exact executed_swap operator unit before after addressed addressed' apart world

end Command
end PackagePower
