import PackagePower.Proofs.Device.Bench
import PackagePower.Proofs.OneShot.Lines
import PackagePower.Proofs.Program.Moment
import PackagePower.Proofs.Program.Outcome
import PackagePower.Proofs.Session.Confirmation

/-!
# All ways for setting or restoring to end

A run ends before it writes, with a write that fails, or some way behind a write that landed. In
the first two the register is as it was found. Whatever channel takes how much, what restores the
value and what is going to be written are on the output channel before the write.
-/

namespace PackagePower

/-! ## Attempts in a history -/

theorem attempt?_eq_none_of_quiet {events : List Event}
    (quiet : ∀ event ∈ events, event.Within Action.Quiet) :
    ∀ event ∈ events, event.attempt? = none := by
  intro event member
  exact (Session.quiet_event (quiet event member)).1

/-- An attempt among others that are none stands at one place only. -/
theorem attempt_split {before later opening closing : List Event} {event other : Event}
    (same : before ++ event :: later = opening ++ other :: closing)
    (attempt : event.attempt? ≠ none)
    (opened : ∀ event ∈ opening, event.attempt? = none)
    (closed : ∀ event ∈ closing, event.attempt? = none) :
    before = opening ∧ event = other ∧ later = closing := by
  rcases List.append_eq_append_iff.1 same with ⟨between, split, rest⟩ | ⟨between, split, rest⟩
  · cases between with
    | nil =>
      rw [List.append_nil] at split
      cases rest
      exact ⟨split.symm, rfl, rfl⟩
    | cons first others =>
      cases rest
      have inside : event ∈ opening := by simp [split]
      exact (attempt (opened event inside)).elim
  · cases between with
    | nil =>
      rw [List.append_nil] at split
      cases rest
      exact ⟨split, rfl, rfl⟩
    | cons first others =>
      cases rest
      have inside : event ∈ others ++ event :: later := by simp
      exact (attempt (closed event inside)).elim

namespace OneShot
open Attempt

/-! ## Exits -/

section
variable (order : OneShot) (unit : PowerUnit) (place command : String)

/-- All that happens before a write. -/
def opening (found target : Word) : List Event :=
  .performed (.read .mmio) (.ok found) ::
    (heading place command found ++ order.announcement target unit).map (Event.line .out)

/-- What happens behind a write that landed, and the result. -/
inductive Closing (place : String) (target : Word) :
    List Event → Option (Except Fault Word) → Prop where
  | unverified (fault : Fault) :
      Closing place target [.performed (.read .mmio) (.error fault)] (some (.error fault))
  | unreported (after : Word) : Closing place target [.performed (.read .mmio) (.ok after)] none
  | reported (after : Word) :
      Closing place target
        (.performed (.read .mmio) (.ok after) :: .line .out s!"AFTER [{place}] = {after.text}" ::
          mismatch place target after)
        (some (.ok after))

/-- The events and the result of a run, however it ends. -/
inductive Exit : List Event → Option (Except Fault Word) → Prop where
  | early {events : List Event} {result : Option (Except Fault Word)} :
      (∀ event ∈ events, event.Within Action.Quiet) → (∀ value, result ≠ some (.ok value)) →
      Exit events result
  | unwritten {found target : Word} (fault : Fault) : order.target found unit = .ok target →
      Exit (order.opening unit place command found target ++
        [.performed (.write .mmio target) (.error fault)]) (some (.error fault))
  | written {found target : Word} {closing : List Event} {result : Option (Except Fault Word)} :
      order.target found unit = .ok target → Closing place target closing result →
      Exit (order.opening unit place command found target ++
        .performed (.write .mmio target) (.ok ()) :: closing) result

end

variable {order : OneShot} {unit : PowerUnit} {place command : String} {events : List Event}
  {result : Option (Except Fault Word)}

theorem mismatch_ends {target after : Word}
    (trace : (if after ≠ target then do
        Program.act (.warn s!"{place} reads back {after.text}, expected {target.text}")
        pure after
      else pure after : Attempt Word).Ends events result) :
    events = mismatch place target after ∧ result = some (.ok after) := by
  unfold mismatch
  split at trace
  · rename_i differs
    rw [if_pos differs]
    cases trace with
    | perform reply rest =>
      obtain ⟨rfl, ended⟩ := Program.trace_done.1 rest
      exact ⟨rfl, ended⟩
  · rename_i agrees
    rw [if_neg agrees]
    exact ends_pure.1 trace

theorem quiet_lines {lines : List String} :
    ∀ event ∈ lines.map (Event.line .out), event.Within Action.Quiet := by
  intro event member
  obtain ⟨line, _, rfl⟩ := List.mem_map.1 member
  trivial

/-- A run that is cut short among its first lines, or refused behind them, is an early one. -/
theorem exit_lines {found : Word} (lines : List String)
    (ended : ∀ value, result ≠ some (.ok value)) :
    Exit order unit place command
      (.performed (.read .mmio) (.ok found) :: lines.map (Event.line .out)) result := by
  refine .early ?_ ended
  intro event member
  rcases List.mem_cons.1 member with rfl | line
  · trivial
  · exact quiet_lines event line

theorem closing_of_ends {target : Word}
    (trace : (do
      let after ← Attempt.read .mmio
      Program.say s!"AFTER [{place}] = {after.text}"
      if after ≠ target then
        Program.act (.warn s!"{place} reads back {after.text}, expected {target.text}")
      pure after : Attempt Word).Ends events result) :
    Closing place target events result := by
  rcases Ends.of_read_bind trace with ⟨fault, rfl, rfl⟩ | ⟨after, _, rfl, told⟩
  · exact .unverified fault
  rcases Ends.of_say_bind told with ⟨rfl, rfl⟩ | ⟨_, rfl, judged⟩
  · exact .unreported after
  obtain ⟨rfl, rfl⟩ := mismatch_ends judged
  exact .reported after

theorem run_exit (trace : (order.run unit place command).Ends events result) :
    Exit order unit place command events result := by
  -- One part of the run after the other; each can be its last.
  rcases Ends.of_read_bind trace with ⟨fault, rfl, rfl⟩ | ⟨found, _, rfl, told₁⟩
  · refine .early ?_ (by simp)
    intro event member
    cases List.mem_singleton.1 member
    trivial
  rcases Ends.of_say_bind told₁ with ⟨rfl, rfl⟩ | ⟨_, rfl, told₂⟩
  · exact exit_lines [] (by simp)
  rcases Ends.of_say_bind told₂ with ⟨rfl, rfl⟩ | ⟨_, rfl, told₃⟩
  · exact exit_lines [_] (by simp)
  rcases Ends.of_say_bind told₃ with ⟨rfl, rfl⟩ | ⟨_, rfl, checked⟩
  · exact exit_lines [_, _] (by simp)
  rcases Ends.of_ofExcept_bind checked with ⟨fault, _, rfl, rfl⟩ | ⟨target, aimed, announced⟩
  · exact exit_lines (heading place command found) (by simp)
  rw [inRange_eq_ok] at aimed
  rcases Ends.of_sayAll_bind announced with ⟨taken, _, rfl, rfl⟩ | ⟨_, rfl, wrote⟩
  · have early : Exit order unit place command (.performed (.read .mmio) (.ok found) ::
        (heading place command found ++ taken).map (Event.line .out)) none :=
      exit_lines _ (by simp)
    rwa [List.map_append] at early
  have before : order.opening unit place command found target =
      .performed (.read .mmio) (.ok found) ::
        ((heading place command found).map (Event.line .out) ++
          (order.announcement target unit).map (Event.line .out)) := by
    rw [opening, List.map_append]
  rcases Ends.of_write_bind wrote with ⟨fault, rfl, rfl⟩ | ⟨_, rfl, left⟩
  · have exit : Exit order unit place command _ _ := .unwritten fault aimed
    rw [before, List.cons_append, List.append_assoc] at exit
    exact exit
  · have exit : Exit order unit place command _ _ := .written aimed (closing_of_ends left)
    rw [before, List.cons_append, List.append_assoc] at exit
    exact exit

/-! ## What a run leaves in the register -/

theorem opening_quiet (order : OneShot) (unit : PowerUnit) (place command : String)
    (found target : Word) :
    ∀ event ∈ order.opening unit place command found target, event.Within Action.Quiet := by
  intro event member
  rcases List.mem_cons.1 member with rfl | line
  · trivial
  · exact quiet_lines event line

theorem attempts_of_opening (order : OneShot) (unit : PowerUnit) (place command : String)
    (found target : Word) (rest : List Event) :
    (order.opening unit place command found target ++ rest).filterMap Event.attempt? =
      rest.filterMap Event.attempt? := by
  have none_before := List.filterMap_eq_nil_iff.2
    (attempt?_eq_none_of_quiet (opening_quiet order unit place command found target))
  rw [List.filterMap_append, none_before, List.nil_append]

theorem closing_quiet {target : Word} {closing : List Event}
    (closed : Closing place target closing result) :
    ∀ event ∈ closing, event.Within Action.Quiet := by
  have logged (after : Word) :
      ∀ event ∈ mismatch place target after, event.Within Action.Quiet := by
    intro event member
    unfold mismatch at member
    split at member
    · cases List.mem_singleton.1 member
      trivial
    · cases member
  cases closed with
  | unverified | unreported =>
    intro event member
    cases List.mem_singleton.1 member
    trivial
  | reported after =>
    simp only [List.forall_mem_cons]
    exact ⟨trivial, trivial, logged after⟩

/-- How a run over `cell` ends, and what the register holds then. -/
inductive Ended (order : OneShot) (unit : PowerUnit) (place command : String) (cell : Cell) :
    List Event → Option (Except Fault Word) → Word → Prop where
  | early {events : List Event} {result : Option (Except Fault Word)} :
      (∀ event ∈ events, event.Within Action.Quiet) → (∀ value, result ≠ some (.ok value)) →
      Ended order unit place command cell events result cell.value
  | unwritten {target : Word} (fault : Fault) : order.target cell.value unit = .ok target →
      Ended order unit place command cell (order.opening unit place command cell.value target ++
        [.performed (.write .mmio target) (.error fault)]) (some (.error fault)) cell.value
  | written {target : Word} {closing : List Event} {result : Option (Except Fault Word)} :
      order.target cell.value unit = .ok target → Closing place target closing result →
      (∀ after, .performed (.read .mmio) (.ok after) ∈ closing → after = cell.settled target) →
      Ended order unit place command cell (order.opening unit place command cell.value target ++
        .performed (.write .mmio target) (.ok ()) :: closing) result (cell.settled target)

section
variable {ω : Type} {operator : Operator ω} {world last : ω × Bench}

theorem opening_replays {found target : Word} {rest : List Event}
    (replays : (operator.at Bench.station).Replays world
      (order.opening unit place command found target ++ rest) last) :
    ∃ middle, found = world.2.mmio.value ∧ Bench.Keeps world.2 middle.2 ∧
      (operator.at Bench.station).Replays middle rest last := by
  obtain ⟨middle, first, later⟩ := Handler.replays_append.1 replays
  obtain ⟨keeps, read⟩ :=
    Session.replays_quiet (opening_quiet order unit place command found target) first
  have found_eq : found = middle.2.value .mmio := read (.mmio, found) List.mem_cons_self
  exact ⟨middle, found_eq.trans (keeps.value .mmio), keeps, later⟩

theorem exit_ended (exit : Exit order unit place command events result)
    (replays : (operator.at Bench.station).Replays world events last) :
    Ended order unit place command world.2.mmio events result last.2.mmio.value := by
  cases exit with
  | early quiet ended =>
    have kept : last.2.mmio.value = world.2.mmio.value :=
      (Session.replays_quiet quiet replays).1.value .mmio
    rw [kept]
    exact .early quiet ended
  | unwritten fault aimed =>
    obtain ⟨middle, rfl, keeps, next, answered, rfl⟩ := opening_replays replays
    have refused := (Session.answer_write answered).2 fault rfl
    have kept : last.2.mmio.value = world.2.mmio.value := (keeps.trans refused).value .mmio
    rw [kept]
    exact .unwritten fault aimed
  | written aimed closed =>
    obtain ⟨middle, rfl, keeps, next, answered, rest⟩ := opening_replays replays
    have landed := keeps.takes ((Session.answer_write answered).1 rfl)
    obtain ⟨quiet, read⟩ := Session.replays_quiet (closing_quiet closed) rest
    have settled := (landed.then quiet).value
    have left : last.2.mmio.value = world.2.mmio.settled _ := settled
    rw [left]
    refine .written aimed closed ?_
    intro after member
    exact (read (.mmio, after) member).trans settled

end

/-! ## Read off an ending -/

/-- Nothing was written: there was no attempt, or one that failed. -/
def Unwritten (fault : Fault) (history : List Event) : Prop :=
  (∀ event ∈ history, event.attempt? = none) ∨
    ∃ before target, history = before ++ [.performed (.write .mmio target) (.error fault)]

/-- The target was written and then not read back, or what was read back was not printed. -/
def Unreported (fault : Fault) (target : Word) (history : List Event) : Prop :=
  ∃ before reply, history = before ++ [.performed (.write .mmio target) (.ok ()),
      .performed (.read .mmio) reply] ∧
    (reply = .error fault ∨ fault = .brokenStream ∧ ∃ after, reply = .ok after)

namespace Ended
variable {cell : Cell} {left : Word}

theorem attempts (ended : Ended order unit place command cell events result left) :
    events.filterMap Event.attempt? = [] ∨
      ∃ target, order.target cell.value unit = .ok target ∧
        events.filterMap Event.attempt? = [.write .mmio target] := by
  cases ended with
  | early quiet => exact .inl (List.filterMap_eq_nil_iff.2 (attempt?_eq_none_of_quiet quiet))
  | unwritten fault aimed =>
    refine .inr ⟨_, aimed, ?_⟩
    rw [attempts_of_opening]
    rfl
  | written aimed closed =>
    have none_after := List.filterMap_eq_nil_iff.2
      (attempt?_eq_none_of_quiet (closing_quiet closed))
    refine .inr ⟨_, aimed, ?_⟩
    rw [attempts_of_opening, List.filterMap_cons, none_after]
    rfl

theorem before_write {copy : RegisterCopy} {word : Word} {reply : Except Fault Unit}
    {before later : List Event}
    (ended : Ended order unit place command cell events result left)
    (split : events = before ++ .performed (.write copy word) reply :: later) :
    copy = .mmio ∧ order.target cell.value unit = .ok word ∧
      before = order.opening unit place command cell.value word := by
  have attempt : (Event.performed (.write copy word) reply).attempt? ≠ none := nofun
  cases ended with
  | early quiet =>
    have inside : Event.performed (.write copy word) reply ∈ events := by simp [split]
    exact (attempt (attempt?_eq_none_of_quiet quiet _ inside)).elim
  | unwritten fault aimed =>
    have nothing_after : ∀ event ∈ ([] : List Event), event.attempt? = none := by simp
    obtain ⟨rfl, same, _⟩ := attempt_split split.symm attempt
      (attempt?_eq_none_of_quiet (opening_quiet _ _ _ _ _ _)) nothing_after
    cases same
    exact ⟨rfl, aimed, rfl⟩
  | written aimed closed =>
    obtain ⟨rfl, same, _⟩ := attempt_split split.symm attempt
      (attempt?_eq_none_of_quiet (opening_quiet _ _ _ _ _ _))
      (attempt?_eq_none_of_quiet (closing_quiet closed))
    cases same
    exact ⟨rfl, aimed, rfl⟩

theorem of_error {fault : Fault} (ended : Ended order unit place command cell events result left)
    (failed : result.getD (.error .brokenStream) = .error fault) :
    (Unwritten fault events ∧ left = cell.value) ∨
      ∃ target, order.target cell.value unit = .ok target ∧ Unreported fault target events ∧
        left = cell.settled target := by
  cases ended with
  | early quiet => exact .inl ⟨.inl (attempt?_eq_none_of_quiet quiet), rfl⟩
  | unwritten other aimed =>
    cases failed
    exact .inl ⟨.inr ⟨_, _, rfl⟩, rfl⟩
  | written aimed closed =>
    refine .inr ⟨_, aimed, ?_, rfl⟩
    cases closed with
    | unverified other =>
      cases failed
      exact ⟨_, _, rfl, .inl rfl⟩
    | unreported after =>
      cases failed
      exact ⟨_, _, rfl, .inr ⟨rfl, after, rfl⟩⟩
    | reported after => cases failed

/-- A run that succeeds did all it has to, and the value it comes to is what a write of the target
leaves. -/
theorem settled_of_ok {value : Word}
    (ended : Ended order unit place command cell events result left)
    (succeeded : result.getD (.error .brokenStream) = .ok value) :
    value = left ∧ ∃ target, order.target cell.value unit = .ok target ∧
      value = cell.settled target ∧
      events = order.course unit place command cell.value target value := by
  cases ended with
  | early quiet ended =>
    cases result with
    | none => cases succeeded
    | some result =>
      cases succeeded
      exact (ended value rfl).elim
  | unwritten => cases succeeded
  | written aimed closed read =>
    cases closed with
    | unverified | unreported => cases succeeded
    | reported =>
      cases succeeded
      have settled := read value List.mem_cons_self
      exact ⟨settled, _, aimed, settled, rfl⟩

end Ended

theorem warned_mem_course {found target after : Word} {text : String} :
    Event.warned text ∈ order.course unit place command found target after ↔
      after ≠ target ∧
        text = place ++ " reads back " ++ after.shown ++ ", expected " ++ target.shown := by
  have told : s!"{place} reads back {after.text}, expected {target.text}" =
      place ++ " reads back " ++ after.shown ++ ", expected " ++ target.shown := by
    rw [after.text_eq_shown, target.text_eq_shown]
    rfl
  rw [← told]
  by_cases agrees : after = target
  · simp [course, mismatch, agrees, Event.warned, Event.line]
  · simp [course, mismatch, agrees, Event.warned, Event.line]

theorem bytes_course {found target after : Word} :
    (order.course unit place command found target after).flatMap (Event.bytesOn .out) =
      Sink.bytes (joinLines (restoreLines place command found ++ order.targetLines unit target ++
        [afterLine place after])) := by
  have logged : (mismatch place target after).flatMap (Event.bytesOn .out) = [] := by
    unfold mismatch
    split <;> rfl
  rw [bytes_joinLines .out, course, ← heading_eq_lines, ← announcement_eq_lines, ← afterLine_eq]
  simp only [List.map_append, List.flatMap_cons, List.flatMap_append, logged]
  simp [Event.bytesOn, Event.line]

theorem attempts_of_course {found target after : Word} :
    (order.course unit place command found target after).filterMap Event.attempt? =
      [.write .mmio target] := by
  have before := attempts_of_opening order unit place command found target
    (.performed (.write .mmio target) (.ok ()) :: .performed (.read .mmio) (.ok after) ::
      .line .out s!"AFTER [{place}] = {after.text}" :: mismatch place target after)
  refine before.trans ?_
  unfold mismatch
  split <;> rfl

/-! ## Runs -/

section
variable {ω : Type}

/-- A run at a bench, with nothing done yet. -/
def begun (world : ω) (bench : Bench) (out err : Sink) : Run (ω × Bench) where
  world := (world, bench)
  out
  err

theorem begun_faithful (world : ω) (bench : Bench) (out err : Sink) :
    (begun world bench out err).Faithful
      fun channel => ((begun world bench out err).sink channel).kept :=
  .of_fresh rfl

/-- One write at most, after the value found, the command that restores it and what is going to be
written were printed. Where nothing is written the register is as it was found; a run that succeeds
has written once, and it comes to what the register holds, prints it, and warns of it where it
differs. -/
theorem writes_once_after_telling (operator : Operator ω) (order : OneShot) (unit : PowerUnit)
    (place command : String) (world : ω) (bench : Bench) (out err : Sink) :
    ∃ result after,
      (order.run unit place command).run (operator.at Bench.station) (begun world bench out err) =
        (result, after) ∧
      (after.history.filterMap Event.attempt? = [] ∨
        ∃ target, order.target bench.mmio.value unit = .ok target ∧
          after.history.filterMap Event.attempt? = [.write .mmio target]) ∧
      (∀ copy word next middle,
        Program.Reaches (operator.at Bench.station) (ExceptT.run (order.run unit place command))
          (begun world bench out err) (.perform (.write copy word) next) middle →
        copy = .mmio ∧ order.target bench.mmio.value unit = .ok word ∧
          middle.out.kept = out.kept ++ Sink.bytes (joinLines
            (restoreLines place command bench.mmio.value ++ order.targetLines unit word))) ∧
      (∀ fault, result = .error fault →
        (Unwritten fault after.history ∧ after.world.2.mmio.value = bench.mmio.value) ∨
          ∃ target, order.target bench.mmio.value unit = .ok target ∧
            Unreported fault target after.history ∧
            after.world.2.mmio.value = bench.mmio.settled target) ∧
      ∀ value, result = .ok value →
        value = after.world.2.mmio.value ∧
          ∃ target, order.target bench.mmio.value unit = .ok target ∧
            after.history.filterMap Event.attempt? = [.write .mmio target] ∧
            value = bench.mmio.settled target ∧
            after.out.kept = out.kept ++ Sink.bytes (joinLines
              (restoreLines place command bench.mmio.value ++ order.targetLines unit target ++
                [afterLine place value])) ∧
            ∀ text, Event.warned text ∈ after.history ↔ value ≠ target ∧
              text = place ++ " reads back " ++ value.shown ++ ", expected " ++ target.shown := by
  obtain ⟨events, ending, trace, ended, whole, replays⟩ := run_ends (operator.at Bench.station)
    (order.run unit place command) (begun world bench out err)
  have exit := exit_ended (run_exit trace) replays
  rcases ran : (order.run unit place command).run (operator.at Bench.station)
    (begun world bench out err) with ⟨result, after⟩
  rw [ran] at ended whole exit
  obtain rfl : after.history = events := whole
  refine ⟨result, after, rfl, exit.attempts, ?_, ?_, ?_⟩
  · intro copy word next middle reached
    obtain ⟨reply, later, split⟩ := reached.history_of_perform
    rw [run_snd, ran] at split
    obtain ⟨rfl, aimed, before⟩ := exit.before_write split
    have held := reached.faithful (begun_faithful world bench out err) .out
    rw [before] at held
    refine ⟨rfl, aimed, ?_⟩
    rw [← heading_eq_lines, ← announcement_eq_lines, bytes_joinLines]
    exact held
  · intro fault failed
    exact exit.of_error (ended.symm.trans failed)
  · intro value succeeded
    obtain ⟨left, target, aimed, settled, course⟩ :=
      exit.settled_of_ok (ended.symm.trans succeeded)
    have held : after.out.kept = out.kept ++ after.history.flatMap (Event.bytesOn .out) :=
      faithful_of_run (begun_faithful world bench out err) (succeeded ▸ ran) .out
    refine ⟨left, target, aimed, ?_, settled, ?_, ?_⟩
    · rw [course]
      exact attempts_of_course
    · rw [held, course, bytes_course]
      rfl
    · intro text
      rw [course]
      exact warned_mem_course

/-- A bench with usual limits. -/
def usualBench : Bench where
  msr := { place := "MSR 0x610 (CPU 0)", value := 0x00DF81B800420000#64 }
  mmio := { place := "MCHBAR 0x200000+0x59A0", value := 0x00DF81B800420000#64 }
  zone := ⟨⟨"", []⟩⟩
  host := .empty

def usualRun : Except Fault Word × Run (Script × Bench) :=
  ((OneShot.set (.ofNat 150) (.ofNat 170)).run .eighthWatt "MCHBAR 0x200000+0x59A0" "tool").run
    (Script.operator.at Bench.station) (begun ⟨[], []⟩ usualBench {} {})

/-- What setting 150 and 170 watts says before it writes. -/
def usualLines : List String :=
  ["ORIG  [MCHBAR 0x200000+0x59A0] = 0x00df81b800420000", "Restore command:",
    "  sudo tool --restore 0x00df81b800420000",
    "SET  PL1=150W (0x4B0)  PL2=170W (0x550) at 0.125 W/unit",
    "NEW  lo32=0x004204b0 hi32=0x00df8550"]

/-- Setting 150 and 170 watts, line by line. -/
theorem usual_run_tells :
    (∀ copy word next middle,
      Program.Reaches (Script.operator.at Bench.station) (ExceptT.run ((OneShot.set (.ofNat 150)
          (.ofNat 170)).run .eighthWatt "MCHBAR 0x200000+0x59A0" "tool"))
        (begun ⟨[], []⟩ usualBench {} {}) (.perform (.write copy word) next) middle →
      copy = .mmio ∧ word = 0x00DF8550004204B0#64 ∧
        middle.out.kept = Sink.bytes (joinLines usualLines)) ∧
    usualRun.1 = .ok 0x00DF8550004204B0#64 ∧
    usualRun.2.history.filterMap Event.attempt? = [.write .mmio 0x00DF8550004204B0#64] ∧
    usualRun.2.out.kept = Sink.bytes (joinLines (usualLines ++
      ["AFTER [MCHBAR 0x200000+0x59A0] = 0x00df8550004204b0"])) := by
  obtain ⟨result, after, ran, _, told, _, done⟩ := writes_once_after_telling Script.operator
    (.set (.ofNat 150) (.ofNat 170)) .eighthWatt "MCHBAR 0x200000+0x59A0" "tool" ⟨[], []⟩ usualBench
    {} {}
  have aim : (OneShot.target (.set (.ofNat 150) (.ofNat 170)) usualBench.mmio.value
      .eighthWatt).toOption = some 0x00DF8550004204B0#64 := by decide +kernel
  have only {target : Word} (aimed : OneShot.target (.set (.ofNat 150) (.ofNat 170))
      usualBench.mmio.value .eighthWatt = .ok target) : target = 0x00DF8550004204B0#64 := by
    rw [aimed] at aim
    exact Option.some.inj aim
  have lines : restoreLines "MCHBAR 0x200000+0x59A0" "tool" usualBench.mmio.value ++
      targetLines .eighthWatt (.set (.ofNat 150) (.ofNat 170)) 0x00DF8550004204B0#64 =
        usualLines := by decide +kernel
  have finished : usualRun.1.toOption = some 0x00DF8550004204B0#64 := by decide +kernel
  have whole : usualRun = (result, after) := ran
  rw [whole] at finished ⊢
  cases result with
  | error fault => cases finished
  | ok value =>
    obtain rfl : value = 0x00DF8550004204B0#64 := Option.some.inj finished
    obtain ⟨_, target, aimed, attempts, _, kept, _⟩ := done _ rfl
    obtain rfl := only aimed
    rw [lines] at kept
    refine ⟨?_, rfl, attempts, ?_⟩
    · intro copy word next middle reached
      obtain ⟨rfl, aimed, kept⟩ := told copy word next middle reached
      obtain rfl := only aimed
      rw [lines] at kept
      exact ⟨rfl, rfl, kept⟩
    · rw [kept]
      decide +kernel

end

end OneShot
end PackagePower
