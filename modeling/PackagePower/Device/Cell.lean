import PackagePower.Fault

/-!
# Cells

A cell is a register by itself. A write leaves its stuck bits at their old values, and which
transfers fail is fixed beforehand by their number. Real registers behave as cells that are
nowhere stuck, as long as nothing else writes to them.
-/

namespace PackagePower

structure Cell where
  /-- The register, as faults name it. -/
  place : String
  value : Word
  /-- Bits that a write leaves alone. -/
  stuck : Word := 0
  readFails : Nat → Bool := fun _ => false
  writeFails : Nat → Bool := fun _ => false
  /-- Transfers so far, failed ones included. -/
  reads : Nat := 0
  writes : Nat := 0

namespace Cell

def read (cell : Cell) : Except Fault Word × Cell :=
  let after := { cell with reads := cell.reads + 1 }
  if cell.readFails cell.reads then (.error (.transfer .read cell.place .refused), after)
  else (.ok cell.value, after)

/-- What a write of `value` leaves in the register. -/
def settled (cell : Cell) (value : Word) : Word :=
  (cell.value &&& cell.stuck) ||| (value &&& ~~~cell.stuck)

def write (cell : Cell) (value : Word) : Except Fault Unit × Cell :=
  let after := { cell with writes := cell.writes + 1 }
  if cell.writeFails cell.writes then (.error (.transfer .write cell.place .refused), after)
  else (.ok (), { after with value := cell.settled value })

@[simp] theorem value_read (cell : Cell) : cell.read.2.value = cell.value := by
  unfold read
  split <;> rfl

/-- A stuck bit keeps its value. -/
theorem getLsbD_settled (cell : Cell) (value : Word) (i : Nat) :
    (cell.settled value).getLsbD i
      = if cell.stuck.getLsbD i then cell.value.getLsbD i else value.getLsbD i := by
  by_cases inside : i < 64
  · simp only [settled, BitVec.getLsbD_or, BitVec.getLsbD_and, BitVec.getLsbD_not, inside]
    cases cell.stuck.getLsbD i <;> simp
  · have beyond := Nat.le_of_not_lt inside
    simp [BitVec.getLsbD_of_ge _ i beyond]

/-- Where no bit is stuck a write leaves what was written. -/
theorem settled_of_free {cell : Cell} (free : cell.stuck = 0) (value : Word) :
    cell.settled value = value := by
  apply BitVec.eq_of_getLsbD_eq
  intro i _
  simp [getLsbD_settled, free]

end Cell
end PackagePower
