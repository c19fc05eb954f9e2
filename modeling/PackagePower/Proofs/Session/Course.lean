import PackagePower.Proofs.Session.Trace

/-!
# The course of a session

`Session.course panel handler start count` is a session after `count` steps from the menu: the
state it is in, unless a channel ended it, and the run so far. One more step is one more run of
`step`, so each event of a session belongs to one step, and what every step keeps holds
throughout.
-/

namespace PackagePower

variable {σ : Type}

/-- A session begun at the menu, after `count` steps. -/
def Session.course (panel : Panel) (handler : Handler σ) (start : Run σ) (count : Nat) :
    Option SessionState × Run σ :=
  (Session.steps panel count .idle).run handler start

namespace Session

theorem steps_succ (panel : Panel) (count : Nat) (state : SessionState) :
    steps panel (count + 1) state = steps panel count state >>= step panel := by
  induction count generalizing state with
  | zero =>
    cases state with
    | exit => rfl
    | idle | showStatus | setLimits | syncLimits | confirm => exact Program.bind_done _
  | succ count ih =>
    cases state with
    | exit => rfl
    | idle | showStatus | setLimits | syncLimits | confirm =>
      exact (congrArg (step panel _ >>= ·) (funext ih)).trans (Program.bind_assoc _ _ _).symm

variable (panel : Panel) (handler : Handler σ) (start : Run σ)

theorem course_zero : course panel handler start 0 = (some .idle, start) := rfl

theorem course_succ {count : Nat} {state : SessionState} {run : Run σ}
    (reached : course panel handler start count = (some state, run)) :
    course panel handler start (count + 1) = (step panel state).run handler run := by
  unfold course at *
  rw [steps_succ, Program.run_bind, reached]

theorem course_ended {count : Nat} {run : Run σ}
    (ended : course panel handler start count = (none, run)) :
    course panel handler start (count + 1) = (none, run) := by
  unfold course at *
  rw [steps_succ, Program.run_bind, ended]

/-- What one more step does, if there is one. -/
theorem course_step {count : Nat} {state : SessionState} {run : Run σ}
    (reached : course panel handler start count = (some state, run)) :
    ∃ events, (step panel state).Trace events (course panel handler start (count + 1)).1 ∧
      (course panel handler start (count + 1)).2.history = run.history ++ events ∧
      handler.Replays run.world events (course panel handler start (count + 1)).2.world := by
  rw [course_succ panel handler start reached]
  exact Program.run_trace handler (step panel state) run

/-- What holds at the menu and is kept by every step holds of each state that a session reaches. -/
theorem course_induction (holds : Nat → SessionState → Run σ → Prop) (first : holds 0 .idle start)
    (next : ∀ count state run, holds count state run → ∀ events later after,
      (step panel state).Trace events (some later) → after.history = run.history ++ events →
      handler.Replays run.world events after.world → holds (count + 1) later after)
    {count : Nat} {state : SessionState} {run : Run σ}
    (reached : course panel handler start count = (some state, run)) : holds count state run := by
  induction count generalizing state run with
  | zero =>
    cases reached
    exact first
  | succ count ih =>
    rcases before : course panel handler start count with ⟨_ | earlier, middle⟩
    · rw [course_ended panel handler start before] at reached
      cases reached
    · obtain ⟨events, trace, history, replays⟩ := course_step panel handler start before
      rw [reached] at trace history replays
      exact next count earlier middle (ih before) events state run trace history replays

/-- The event that follows `before` belongs to step `k`. -/
def StepOf (before : List Event) (event : Event) (k : Nat) : Prop :=
  ∃ state run early rest, course panel handler start k = (some state, run) ∧
    before = run.history ++ early ∧
    (step panel state).Trace (early ++ event :: rest) (course panel handler start (k + 1)).1 ∧
    (course panel handler start (k + 1)).2.history = run.history ++ (early ++ event :: rest)

/-- Each event belongs to a step. -/
theorem step_of_event (fresh : start.events = []) {count : Nat} {before later : List Event}
    {event : Event}
    (split : (course panel handler start count).2.history = before ++ event :: later) :
    ∃ k < count, StepOf panel handler start before event k := by
  induction count generalizing later with
  | zero =>
    rw [course_zero] at split
    simp [Run.history, fresh] at split
  | succ count ih =>
    have before_last {later : List Event}
        (split : (course panel handler start count).2.history = before ++ event :: later) :
        ∃ k < count + 1, StepOf panel handler start before event k := by
      obtain ⟨k, below, found⟩ := ih split
      exact ⟨k, Nat.lt_succ_of_lt below, found⟩
    rcases reached : course panel handler start count with ⟨_ | state, run⟩
    · rw [course_ended panel handler start reached] at split
      exact before_last (by rw [reached]; exact split)
    · obtain ⟨events, trace, history, _⟩ := course_step panel handler start reached
      rw [history] at split
      rcases List.append_eq_append_iff.1 split with ⟨early, rfl, rfl⟩ | ⟨shared, told, same⟩
      · exact ⟨count, Nat.lt_succ_self count, state, run, early, later, reached, rfl, trace,
          history⟩
      · cases shared with
        | nil =>
          rw [List.append_nil] at told
          rw [List.nil_append] at same
          subst told same
          exact ⟨count, Nat.lt_succ_self count, state, run, [], later, reached,
            (List.append_nil _).symm, trace, history⟩
        | cons head tail =>
          rw [List.cons_append, List.cons.injEq] at same
          obtain ⟨rfl, rfl⟩ := same
          exact before_last (by rw [reached]; exact told)

end Session
end PackagePower
