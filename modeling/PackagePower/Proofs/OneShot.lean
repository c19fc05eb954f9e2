import PackagePower.OneShot
import PackagePower.Proofs.Program.Attempt

/-!
# Traces of setting or restoring

All that one run does, in order: it reads, prints what restores the value, says what it is
going to write, writes, and reads back.
-/

namespace PackagePower.OneShot
open Attempt

/-- What is printed once the register was read. -/
def heading (place command : String) (found : Word) : List String :=
  [s!"ORIG  [{place}] = {found.text}", "Restore command:",
    s!"  sudo {command} --restore {found.text}"]

/-- What is logged of a value read back. -/
def mismatch (place : String) (target after : Word) : List Event :=
  if after ≠ target then
    [.warned s!"{place} reads back {after.text}, expected {target.text}"]
  else []

/-- The events of a run that succeeds. -/
def course (order : OneShot) (unit : PowerUnit) (place command : String)
    (found target after : Word) : List Event :=
  .performed (.read .mmio) (.ok found) ::
    ((heading place command found ++ order.announcement target unit).map (Event.line .out) ++
      .performed (.write .mmio target) (.ok ()) :: .performed (.read .mmio) (.ok after) ::
      .line .out s!"AFTER [{place}] = {after.text}" :: mismatch place target after)

theorem mismatch_succeeds {place : String} {target after found : Word} {events : List Event} :
    (if after ≠ target then do
        Program.act (.warn s!"{place} reads back {after.text}, expected {target.text}")
        pure after
      else pure after : Attempt Word).Succeeds events found ↔
      events = mismatch place target after ∧ found = after := by
  unfold mismatch
  split
  · simp only [succeeds_bind, succeeds_lift, succeeds_pure]
    constructor
    · rintro ⟨_, _, _, rfl, warned, rfl, rfl⟩
      cases Program.trace_act.1 warned
      exact ⟨rfl, rfl⟩
    · rintro ⟨rfl, rfl⟩
      exact ⟨(), _, [], (List.append_nil _).symm, Program.trace_act.2 rfl, rfl, rfl⟩
  · exact succeeds_pure

theorem run_succeeds {order : OneShot} {unit : PowerUnit} {place command : String}
    {events : List Event} {after : Word} :
    (order.run unit place command).Succeeds events after ↔
      ∃ found target, order.target found unit = .ok target ∧
        events = order.course unit place command found target after := by
  unfold run
  simp only [succeeds_read_bind, succeeds_say_bind, succeeds_ofExcept_bind, inRange_eq_ok,
    succeeds_sayAll_bind, succeeds_write_bind]
  constructor
  · rintro ⟨found, _, rfl, _, rfl, _, rfl, _, rfl, target, aimed, _, rfl, _, rfl, read, _, rfl, _,
      rfl, rest⟩
    obtain ⟨rfl, rfl⟩ := mismatch_succeeds.1 rest
    refine ⟨found, target, aimed, ?_⟩
    simp [course, heading]
  · rintro ⟨found, target, aimed, rfl⟩
    refine ⟨found, _, rfl, _, rfl, _, rfl, _, rfl, target, aimed, _, ?_, _, rfl, after, _, rfl, _,
      rfl, mismatch_succeeds.2 ⟨rfl, rfl⟩⟩
    rfl

end PackagePower.OneShot
