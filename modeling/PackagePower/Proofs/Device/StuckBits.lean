import PackagePower.Proofs.Device.Bench
import PackagePower.Proofs.Program.Attempt

/-!
# Stuck bits under a run

A write leaves the stuck bits of a register, and nothing else that a program does reaches them. So
whatever ran in between, a word that was read from the register is later taken as it is.
-/

namespace PackagePower

/-- Where the value has the bits that the cell has stuck, it is taken as it is. -/
theorem Cell.settled_of_held {cell : Cell} {value : Word}
    (held : cell.value &&& cell.stuck = value &&& cell.stuck) : cell.settled value = value := by
  unfold settled
  rw [held]
  apply BitVec.eq_of_getLsbD_eq
  intro i inside
  simp only [BitVec.getLsbD_or, BitVec.getLsbD_and, BitVec.getLsbD_not, inside]
  cases cell.stuck.getLsbD i <;> simp

namespace Bench

/-- The stuck bits of all registers are the same, and hold the same. -/
structure StuckAlike (before after : Bench) : Prop where
  stuck : ∀ copy, after.stuck copy = before.stuck copy
  held : ∀ copy, after.value copy &&& after.stuck copy = before.value copy &&& before.stuck copy

namespace StuckAlike

variable {before after : Bench}

theorem refl (bench : Bench) : StuckAlike bench bench := ⟨fun _ => rfl, fun _ => rfl⟩

theorem trans {third : Bench} (first : StuckAlike before after) (second : StuckAlike after third) :
    StuckAlike before third :=
  ⟨fun copy => (second.stuck copy).trans (first.stuck copy),
    fun copy => (second.held copy).trans (first.held copy)⟩

theorem of_keeps (keeps : Keeps before after) : StuckAlike before after := by
  refine ⟨keeps.stuck, fun copy => ?_⟩
  rw [keeps.value, keeps.stuck]

theorem of_takes {copy : RegisterCopy} {word : Word} (takes : Takes before copy word after) :
    StuckAlike before after := by
  refine ⟨takes.stuck, fun other => ?_⟩
  rw [takes.stuck]
  by_cases same : other = copy
  · subst same
    rw [takes.value]
    apply BitVec.eq_of_getLsbD_eq
    intro i _
    rw [BitVec.getLsbD_and, Cell.getLsbD_settled, BitVec.getLsbD_and]
    change ((if (before.stuck other).getLsbD i then (before.value other).getLsbD i
      else word.getLsbD i) && (before.stuck other).getLsbD i) = _
    cases (before.stuck other).getLsbD i <;> simp
  · rw [takes.other other same]

/-- What a register held is what a write of it leaves. -/
theorem settled (alike : StuckAlike before after) (copy : RegisterCopy) :
    (after.cell copy).settled (before.value copy) = before.value copy := by
  apply Cell.settled_of_held
  exact (alike.held copy).trans (by rw [← alike.stuck]; rfl)

end StuckAlike

variable {ω α : Type}

theorem answer_stuckAlike (operator : Operator ω) (action : Action) (world : ω × Bench) :
    StuckAlike world.2 ((operator.at station).answer action world).2.2 := by
  cases action with
  | write copy word =>
    cases landed : (station.write copy word world.2).1 with
    | ok => exact .of_takes (write_takes landed)
    | error fault => exact .of_keeps (write_keeps landed)
  | _ => exact .of_keeps (Session.answer_keeps operator world _ nofun)

theorem run_stuckAlike (operator : Operator ω) (attempt : Attempt α) (run : Run (ω × Bench)) :
    StuckAlike run.world.2 (attempt.run (operator.at station) run).2.world.2 := by
  obtain ⟨events, _, _, _, _, replays⟩ := Attempt.run_ends (operator.at station) attempt run
  have within : ∀ event ∈ events, event.Within fun _ => True := by
    intro event _
    cases event <;> trivial
  exact Handler.replays_relates (fun before after : ω × Bench => StuckAlike before.2 after.2)
    (fun _ => .refl _) StuckAlike.trans
    (fun action _ world => answer_stuckAlike operator action world) within replays

end Bench
end PackagePower
