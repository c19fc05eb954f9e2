import PackagePower.Program.Station
import PackagePower.Proofs.Program.Attempt
import PackagePower.Proofs.Program.Cut
import PackagePower.Proofs.Program.Only

/-!
# Programs that end with their process

`program.mortal` is `program` up to the first access that the process does not outlive. So it
comes to a value exactly in the traces of `program` without such an access, and in those its run
is that of the program; else it ends with the access. A program that is held to some actions is
still held to them.
-/

namespace PackagePower

variable {α β σ : Type}

/-- The event of an access that the process did not outlive. -/
def Event.Fatal : Event → Prop
  | .printed _ _ => False
  | .performed action reply => action.isFatal reply = true

namespace Program

theorem mortal_bind (program : Program α) (f : α → Program β) :
    (program >>= f).mortal = (program.mortal >>= fun value => (f value).mortal) := by
  induction program with
  | done value => rfl
  | print channel text lastWords next ih =>
    exact congrArg (fun rest => ExceptT.mk (Program.print channel text lastWords rest)) ih
  | perform action next ih =>
    refine congrArg (fun rest => ExceptT.mk (Program.perform action rest)) (funext fun reply => ?_)
    by_cases fatal : action.isFatal reply = true
    · simp only [fatal, if_true]
      rfl
    · simp only [fatal]
      exact ih reply

theorem Only.mortal {allowed : Action → Prop} {program : Program α}
    (only : program.Only allowed) : program.mortal.Only allowed := by
  induction only with
  | done value => exact .done _
  | print last _ ih => exact .print last ih
  | perform permitted _ ih =>
    refine .perform permitted fun reply => ?_
    split
    · exact .done _
    · exact ih reply

/-- How a mortal program ends: as the program does, without a fatal access, or with one. -/
theorem mortal_trace {program : Program α} {events : List Event}
    {result : Option (Except Fault α)} (trace : program.mortal.Ends events result) :
    (∃ reached, program.Trace events reached ∧ result = reached.map .ok ∧
        ∀ event ∈ events, ¬ event.Fatal) ∨
      result = some (.error .noPage) ∧ ∃ event ∈ events, event.Fatal := by
  unfold Attempt.Ends at trace
  induction program generalizing events with
  | done value =>
    obtain ⟨rfl, rfl⟩ := trace_done.1 trace
    exact .inl ⟨some value, .done value, rfl, by simp⟩
  | print channel text lastWords next ih =>
    cases trace with
    | print rest =>
      rcases ih rest with ⟨reached, trace, rfl, alive⟩ | ⟨rfl, event, member, fatal⟩
      · refine .inl ⟨reached, .print trace, rfl, List.forall_mem_cons.2 ⟨id, alive⟩⟩
      · exact .inr ⟨rfl, event, List.mem_cons_of_mem _ member, fatal⟩
    | cut =>
      refine .inl ⟨none, .cut, rfl, ?_⟩
      intro event member
      obtain ⟨text, _, rfl⟩ := List.mem_map.1 member
      exact Bool.false_ne_true
  | perform action next ih =>
    cases trace with
    | perform reply rest =>
      dsimp only at rest
      by_cases fatal : action.isFatal reply = true
      · rw [if_pos fatal] at rest
        obtain ⟨rfl, rfl⟩ := trace_done.1 rest
        exact .inr ⟨rfl, _, List.mem_cons_self, fatal⟩
      · rw [if_neg fatal] at rest
        rcases ih reply rest with ⟨reached, trace, rfl, alive⟩ | ⟨rfl, event, member, fatal⟩
        · exact .inl ⟨reached, .perform reply trace, rfl, List.forall_mem_cons.2 ⟨fatal, alive⟩⟩
        · exact .inr ⟨rfl, event, List.mem_cons_of_mem _ member, fatal⟩

/-- Where the channels take everything, a mortal program comes to a value of the program, or a fatal
access ends it. -/
theorem mortal_run (program : Program α) (handler : Handler σ) {run : Run σ}
    (unlimited : run.Unlimited) :
    ∃ events, (program.mortal.run handler run).2.history = run.history ++ events ∧
      handler.Replays run.world events (program.mortal.run handler run).2.world ∧
      ((∃ value, (program.mortal.run handler run).1 = .ok value ∧
          program.Trace events (some value) ∧ ∀ event ∈ events, ¬ event.Fatal) ∨
        (program.mortal.run handler run).1 = .error .noPage ∧ ∃ event ∈ events, event.Fatal) := by
  obtain ⟨result, after, finished, _⟩ :=
    Program.run_unlimited (ExceptT.run program.mortal) handler unlimited
  obtain ⟨events, trace, history, replays⟩ :=
    Program.run_trace handler (ExceptT.run program.mortal) run
  unfold Attempt.run
  rw [finished] at trace history replays ⊢
  refine ⟨events, history, replays, ?_⟩
  rcases mortal_trace trace with ⟨_ | value, trace, same, alive⟩ | ⟨same, fatal⟩
  · cases same
  · exact .inl ⟨value, Option.some.inj same, trace, alive⟩
  · exact .inr ⟨Option.some.inj same, fatal⟩

end Program

/-! ## Stations -/

variable {ω : Type} {operator : Operator ω} {station : Station σ} {lacks : Bool}

theorem Station.world_ending (action : Action) (world : ω × σ) :
    ((operator.at (station.ending lacks)).answer action world).2 =
      ((operator.at station).answer action world).2 := by
  cases action <;> rfl

theorem Station.ending_false (station : Station σ) : station.ending false = station := by
  unfold Station.ending
  simp

end PackagePower
