import PackagePower.CommandLine.Terminal
import PackagePower.Proofs.Session.Ending

/-!
# Sessions at a terminal

A line of a terminal's input is gone once it was read, by a prompt or by a decision. So a session
at a terminal is over within the steps that the lines of its input pay for.
-/

namespace PackagePower.CommandLine.Terminal

variable {σ : Type}

/-- Lines that can still be read. -/
def linesLeft (terminal : Terminal) : Nat :=
  if terminal.input = [] then 0 else terminal.lineCount

theorem linesLeft_le (terminal : Terminal) : terminal.linesLeft ≤ terminal.lineCount := by
  unfold linesLeft
  split
  · exact Nat.zero_le _
  · exact Nat.le_refl _

/-- A line is taken off input that there is. -/
theorem linesLeft_splitLine {input : List UInt8} (some : input ≠ []) :
    linesLeft { input := (splitLine input).2 } < linesLeft { input } := by
  induction input with
  | nil => exact (some rfl).elim
  | cons byte rest ih =>
    unfold splitLine
    by_cases ends : byte = lineEnd
    · rw [if_pos ends]
      subst ends
      have fewer := linesLeft_le { input := rest }
      simp only [lineCount, linesLeft, reduceCtorEq, if_false, List.count_cons_self] at fewer ⊢
      omega
    · rw [if_neg ends]
      have kept : linesLeft { input := byte :: rest } = lineCount { input := rest } := by
        simp [linesLeft, lineCount, List.count_cons_of_ne ends]
      rw [kept]
      cases rest with
      | nil => exact Nat.zero_lt_succ _
      | cons next others =>
        exact Nat.lt_of_lt_of_le (ih (List.cons_ne_nil _ _)) (linesLeft_le _)

theorem linesLeft_readLine (terminal : Terminal) :
    terminal.readLine.2.linesLeft + terminal.readLine.1.toList.length ≤ terminal.linesLeft := by
  obtain ⟨input⟩ := terminal
  cases input with
  | nil => exact Nat.le_refl _
  | cons byte rest =>
    have fewer := linesLeft_splitLine (List.cons_ne_nil byte rest)
    have one (line : Option String) : line.toList.length ≤ 1 := by
      cases line with
      | none => exact Nat.zero_le 1
      | some => exact Nat.le_refl 1
    exact Nat.le_trans (Nat.add_le_add_left (one _) _) fewer

theorem operator_runsOut : operator.RunsOut linesLeft where
  line _ terminal := linesLeft_readLine terminal
  decide _ terminal := Nat.le_trans (Nat.le_add_right _ _) (linesLeft_readLine terminal)

/-- The steps that a session at a terminal is given end it. -/
theorem session_ends (panel : Panel) (station : Station σ) (start : Run (Terminal × σ)) :
    (Session.course panel (operator.at station) start
        (Session.enoughSteps start.world.1.lineCount)).1 = none ∨
      (Session.course panel (operator.at station) start
        (Session.enoughSteps start.world.1.lineCount)).1 = some .exit := by
  apply Session.course_ends operator_runsOut
  have fewer := linesLeft_le start.world.1
  unfold Session.enoughSteps
  omega

end PackagePower.CommandLine.Terminal
