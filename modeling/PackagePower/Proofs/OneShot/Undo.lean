import PackagePower.Proofs.Device.StuckBits
import PackagePower.Proofs.OneShot.Exits
import PackagePower.Proofs.Quantity

/-!
# Undoing a run

A run that succeeds prints one line that tells how to restore the register, and the word on it is
the one found before anything was written. Restoring that word brings it back, stuck bits or not:
they are in it as the register has them.
-/

namespace PackagePower

namespace OneShot
open Session (opening_append)

/-! ## The printed word -/

/-- The line that tells how to restore a word. -/
def hint (command word : String) : String := "  sudo " ++ command ++ " --restore " ++ word

theorem hint_inj {command word other : String} :
    hint command word = hint command other ↔ word = other := by
  constructor
  · intro same
    have texts := congrArg String.toList same
    simp only [hint, String.toList_append] at texts
    exact String.toList_inj.1 (List.append_cancel_left texts)
  · rintro rfl
    rfl

theorem opening_hint (command word : String) : Session.opening (hint command word) = [' ', ' '] := by
  apply opening_append
  apply opening_append
  apply opening_append
  rfl

section
variable {order : OneShot} {unit : PowerUnit} {place command : String} {found target after : Word}

theorem line_mem_course {text : String} :
    Event.line .out text ∈ order.course unit place command found target after ↔
      text ∈ heading place command found ++ order.announcement target unit ∨
        text = s!"AFTER [{place}] = {after.text}" := by
  have unlogged : Event.line .out text ∉ mismatch place target after := by
    unfold mismatch
    split <;> simp [Event.line, Event.warned]
  have unperformed (action : Action) (reply : action.Reply) :
      Event.line .out text ≠ .performed action reply := by
    intro same
    cases same
  unfold course
  simp only [List.mem_cons, List.mem_append, List.mem_map, Event.line_inj, exists_eq_right,
    unperformed, unlogged, false_or, or_false]

theorem opening_announcement {text : String} (told : text ∈ order.announcement target unit) :
    Session.opening text = ['S', 'E'] ∨ Session.opening text = ['N', 'E'] ∨ Session.opening text = ['R', 'E'] := by
  cases order with
  | set watts₁ watts₂ =>
    rcases List.mem_cons.1 told with rfl | told
    · left
      repeat apply opening_append
      rfl
    · cases List.mem_singleton.1 told
      right
      left
      repeat apply opening_append
      rfl
  | restore value =>
    cases List.mem_singleton.1 told
    right
    right
    apply opening_append
    rfl

/-- Among all lines of a run only one tells how to restore a word: the one found. -/
theorem hint_mem_course {word : String} :
    Event.line .out (hint command word) ∈ order.course unit place command found target after ↔
      word = found.text := by
  have opened := opening_hint command word
  rw [line_mem_course]
  constructor
  · rintro (told | same)
    · rcases List.mem_append.1 told with first | announced
      · simp only [heading, List.mem_cons, List.not_mem_nil, or_false] at first
        rcases first with same | same | same
        · rw [same] at opened
          have other : Session.opening s!"ORIG  [{place}] = {found.text}" = ['O', 'R'] := by
            repeat apply opening_append
            rfl
          cases opened.symm.trans other
        · rw [same] at opened
          cases opened
        · exact hint_inj.1 same
      · rcases opening_announcement announced with other | other | other <;>
          cases opened.symm.trans other
    · rw [same] at opened
      have other : Session.opening s!"AFTER [{place}] = {after.text}" = ['A', 'F'] := by
        repeat apply opening_append
        rfl
      cases opened.symm.trans other
  · rintro rfl
    left
    apply List.mem_append_left
    apply List.mem_cons_of_mem
    apply List.mem_cons_of_mem
    exact List.mem_cons_self

end

/-! ## Two runs -/

section
variable {ω : Type} {operator : Operator ω} {order : OneShot} {unit : PowerUnit}
  {place command : String} {world : ω} {bench : Bench} {out err : Sink} {value : Word}
  {after : Run (ω × Bench)}

/-- What a run that succeeds leaves, and all that it did. -/
theorem run_succeeded
    (ran : (order.run unit place command).run (operator.at Bench.station)
      (begun world bench out err) = (.ok value, after)) :
    ∃ target, order.target bench.mmio.value unit = .ok target ∧
      value = bench.mmio.settled target ∧ after.world.2.mmio.value = value ∧
      after.history = order.course unit place command bench.mmio.value target value := by
  obtain ⟨events, result, trace, ended, whole, replays⟩ := Attempt.run_ends (operator.at Bench.station)
    (order.run unit place command) (begun world bench out err)
  rw [ran] at ended whole replays
  obtain rfl : after.history = events := whole
  have exit := exit_ended (run_exit trace) replays
  obtain ⟨left, target, aimed, settled, course⟩ := exit.settled_of_ok ended.symm
  exact ⟨target, aimed, settled, left.symm, course⟩

/-- Restoring what the register held before a run brings it back without a warning. -/
theorem restored {before : Bench} (alike : Bench.StuckAlike before bench)
    (ran : ((OneShot.restore before.mmio.value).run unit place command).run
      (operator.at Bench.station) (begun world bench out err) = (.ok value, after)) :
    value = before.mmio.value ∧ after.world.2.mmio.value = before.mmio.value ∧
      ∀ text, Event.warned text ∉ after.history := by
  obtain ⟨target, aimed, settled, left, course⟩ := run_succeeded ran
  cases aimed
  have same : value = before.mmio.value := settled.trans (alike.settled .mmio)
  refine ⟨same, left.trans same, ?_⟩
  intro text warned
  rw [course, warned_mem_course] at warned
  exact warned.1 same

/-- Restoring undoes every run that succeeds, whatever bits of the register are stuck. -/
theorem restore_undoes
    (ran : (order.run unit place command).run (operator.at Bench.station)
      (begun world bench out err) = (.ok value, after)) :
    (∃ word, Event.line .out (hint command word) ∈ after.history) ∧
      ∀ word, Event.line .out (hint command word) ∈ after.history →
        Quantity.word word = .ok bench.mmio.value ∧
        ∀ (ω' : Type) (operator' : Operator ω') (world' : ω') (unit' : PowerUnit)
          (place' command' : String) (out' err' : Sink) (value' : Word) (last : Run (ω' × Bench)),
          ((OneShot.restore bench.mmio.value).run unit' place' command').run
              (operator'.at Bench.station) (begun world' after.world.2 out' err') =
            (.ok value', last) →
          value' = bench.mmio.value ∧ last.world.2.mmio.value = bench.mmio.value ∧
            ∀ text, Event.warned text ∉ last.history := by
  obtain ⟨target, _, _, _, course⟩ := run_succeeded ran
  rw [course]
  refine ⟨⟨_, hint_mem_course.2 rfl⟩, ?_⟩
  intro word shown
  rw [hint_mem_course.1 shown]
  refine ⟨Quantity.word_text _, ?_⟩
  intro ω' operator' world' unit' place' command' out' err' value' last again
  have alike : Bench.StuckAlike bench after.world.2 := by
    have left := Bench.run_stuckAlike operator (order.run unit place command)
      (begun world bench out err)
    rwa [ran] at left
  exact restored alike again

end

/-- A bench where half of the chipset's copy is stuck. -/
def halfStuck : Bench where
  msr := { place := "MSR", value := 0x004284E800DF81B8#64 }
  mmio := { place := "MMIO", value := 0x004284E800DF81B8#64, stuck := 0xFFFFFFFF00000000#64 }
  zone := ⟨⟨"", []⟩⟩
  host := .empty

def halfStuckSet : Except Fault Word × Run (Script × Bench) :=
  ((OneShot.set (.ofNat 150) (.ofNat 170)).run .eighthWatt "MMIO" "tool").run
    (Script.operator.at Bench.station) (begun ⟨[], []⟩ halfStuck {} {})

def halfStuckRestored : Except Fault Word × Run (Script × Bench) :=
  ((OneShot.restore halfStuck.mmio.value).run .eighthWatt "MMIO" "tool").run
    (Script.operator.at Bench.station) (begun ⟨[], []⟩ halfStuckSet.2.world.2 {} {})

/-- Of 150 and 170 watts only the first is taken; restoring undoes that. -/
theorem stuck_run_is_undone :
    halfStuckSet.1 = .ok 0x004284E800DF84B0#64 ∧
      Event.line .out (hint "tool" "0x004284e800df81b8") ∈ halfStuckSet.2.history ∧
      Quantity.word "0x004284e800df81b8" = .ok halfStuck.mmio.value ∧
      halfStuckRestored.1 = .ok halfStuck.mmio.value ∧
      halfStuckRestored.2.world.2.mmio.value = halfStuck.mmio.value := by
  have finished {run : Except Fault Word × Run (Script × Bench)} {value : Word}
      (found : run.1.toOption = some value) : run = (.ok value, run.2) := by
    rcases run with ⟨_ | _, after⟩ <;> cases found
    rfl
  have first : halfStuckSet = (.ok 0x004284E800DF84B0#64, halfStuckSet.2) :=
    finished (by decide +kernel)
  have second : halfStuckRestored = (.ok halfStuck.mmio.value, halfStuckRestored.2) :=
    finished (by decide +kernel)
  obtain ⟨_, undone⟩ := restore_undoes first
  have told : Event.line .out (hint "tool" "0x004284e800df81b8") ∈ halfStuckSet.2.history := by
    obtain ⟨target, _, _, _, course⟩ := run_succeeded first
    rw [course, hint_mem_course]
    decide +kernel
  obtain ⟨read, restores⟩ := undone _ told
  obtain ⟨_, left, _⟩ := restores _ _ _ _ _ _ _ _ _ _ second
  exact ⟨congrArg Prod.fst first, told, read, congrArg Prod.fst second, left⟩

end OneShot
end PackagePower
