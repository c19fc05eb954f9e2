import PackagePower.Proofs.Program.Trace

/-!
# Moments of a run

`Program.Reaches handler program run rest later` says that `program`, begun at `run`, comes to a
moment where `rest` is still to do and the run so far is `later`. What a program does from that
moment on is what `rest` does, and what it had printed by then its channels hold by then.
-/

namespace PackagePower

variable {α σ : Type}

inductive Program.Reaches (handler : Handler σ) : Program α → Run σ → Program α → Run σ → Prop where
  | here (program : Program α) (run : Run σ) : Reaches handler program run program run
  | print {channel : Channel} {text : String} {lastWords : List String} {next rest : Program α}
      {run later : Run σ} : (run.sink channel).fits text →
      Reaches handler next ((run.handed channel text).record (.printed channel text)) rest later →
      Reaches handler (.print channel text lastWords next) run rest later
  | perform {action : Action} {next : action.Reply → Program α} {rest : Program α}
      {run later : Run σ} :
      Reaches handler (next (run.performed handler action).1) (run.performed handler action).2
        rest later →
      Reaches handler (.perform action next) run rest later

namespace Program.Reaches

variable {handler : Handler σ} {program rest : Program α} {run later : Run σ}

theorem run_eq (reached : Reaches handler program run rest later) :
    program.run handler run = rest.run handler later := by
  induction reached with
  | here => rfl
  | print fits _ ih =>
    rw [Program.run, if_pos fits]
    exact ih
  | perform _ ih => exact ih

theorem faithful {before : Channel → List UInt8} (reached : Reaches handler program run rest later)
    (faithful : run.Faithful before) : later.Faithful before := by
  induction reached with
  | here => exact faithful
  | print fits _ ih => exact ih (faithful.printed fits)
  | perform _ ih => exact ih (faithful.performed handler _)

/-- What is about to be performed is what happens next. -/
theorem history_of_perform {action : Action} {next : action.Reply → Program α}
    (reached : Reaches handler program run (.perform action next) later) :
    ∃ reply events, (program.run handler run).2.history =
      later.history ++ .performed action reply :: events := by
  rw [reached.run_eq]
  obtain ⟨events, _, history, _⟩ := run_trace handler
    (next (later.performed handler action).1) (later.performed handler action).2
  refine ⟨(later.performed handler action).1, events, ?_⟩
  have recorded : (later.performed handler action).2.history =
      later.history ++ [.performed action (later.performed handler action).1] :=
    Run.history_record _ _
  rw [recorded, List.append_assoc] at history
  exact history

end Program.Reaches
end PackagePower
