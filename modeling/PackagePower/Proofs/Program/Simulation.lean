import PackagePower.Proofs.Program.Only

/-!
# Two handlers that reply alike

A program learns of a world only by the replies it gets. Where two handlers give the same replies
as long as their worlds are in some relation, a program runs the same over both: it comes to the
same result and leaves the same texts and the same record of what happened. The handlers need to
agree on no more actions than the program is held to.
-/

namespace PackagePower

variable {α σ τ : Type} {allowed : Action → Prop}

/-- In related worlds the handlers reply alike, and the worlds they leave are related again. -/
def Handler.Simulates (handler : Handler σ) (other : Handler τ) (related : σ → τ → Prop) : Prop :=
  ∀ action world beside, related world beside →
    (handler.answer action world).1 = (other.answer action beside).1 ∧
      related (handler.answer action world).2 (other.answer action beside).2

/-- The same, of the actions in `allowed`. -/
def Handler.SimulatesOn (handler : Handler σ) (allowed : Action → Prop) (other : Handler τ)
    (related : σ → τ → Prop) : Prop :=
  ∀ action, allowed action → ∀ world beside, related world beside →
    (handler.answer action world).1 = (other.answer action beside).1 ∧
      related (handler.answer action world).2 (other.answer action beside).2

/-- The runs differ in their worlds only, which are related. -/
structure Run.Like (related : σ → τ → Prop) (run : Run σ) (beside : Run τ) : Prop where
  world : related run.world beside.world
  out : run.out = beside.out
  err : run.err = beside.err
  events : run.events = beside.events

namespace Run.Like

variable {related : σ → τ → Prop} {run : Run σ} {beside : Run τ}
  {handler : Handler σ} {other : Handler τ}

theorem sink (like : Like related run beside) (channel : Channel) :
    run.sink channel = beside.sink channel := by
  cases channel with
  | out => exact like.out
  | err => exact like.err

theorem handed (like : Like related run beside) (channel : Channel) (text : String) :
    Like related (run.handed channel text) (beside.handed channel text) := by
  cases channel with
  | out => exact ⟨like.world, congrArg (Sink.write · text) like.out, like.err, like.events⟩
  | err => exact ⟨like.world, like.out, congrArg (Sink.write · text) like.err, like.events⟩

theorem record (like : Like related run beside) (event : Event) :
    Like related (run.record event) (beside.record event) :=
  ⟨like.world, like.out, like.err, congrArg (event :: ·) like.events⟩

theorem performed (like : Like related run beside)
    (simulates : handler.SimulatesOn allowed other related) {action : Action}
    (permitted : allowed action) :
    (run.performed handler action).1 = (beside.performed other action).1 ∧
      Like related (run.performed handler action).2 (beside.performed other action).2 := by
  obtain ⟨reply, worlds⟩ := simulates action permitted _ _ like.world
  refine ⟨reply, worlds, like.out, like.err, ?_⟩
  change Event.performed action (handler.answer action run.world).1 :: run.events =
    Event.performed action (other.answer action beside.world).1 :: beside.events
  rw [reply, like.events]

theorem warned (like : Like related run beside)
    (simulates : handler.SimulatesOn allowed other related) {lastWords : List String}
    (permitted : ∀ text ∈ lastWords, allowed (.warn text)) :
    Like related (run.warned handler lastWords) (beside.warned other lastWords) := by
  induction lastWords generalizing run beside with
  | nil => exact like
  | cons text rest ih =>
    obtain ⟨first, later⟩ := List.forall_mem_cons.1 permitted
    exact ih (like.performed simulates first).2 later

end Run.Like

section
variable {handler : Handler σ} {other : Handler τ} {related : σ → τ → Prop} {run : Run σ}
  {beside : Run τ}

/-- A program runs the same over handlers that agree on all it may come to. -/
theorem Program.Only.run_like (simulates : handler.SimulatesOn allowed other related)
    {program : Program α} (only : program.Only allowed) (like : Run.Like related run beside) :
    (program.run handler run).1 = (program.run other beside).1 ∧
      Run.Like related (program.run handler run).2 (program.run other beside).2 := by
  induction only generalizing run beside with
  | done value => exact ⟨rfl, like⟩
  | @print channel text _ _ last _ ih =>
    simp only [Program.run]
    rw [like.sink channel]
    split
    · exact ih ((like.handed channel text).record _)
    · exact ⟨rfl, (like.handed channel text).warned simulates last⟩
  | perform permitted _ ih =>
    obtain ⟨reply, after⟩ := like.performed simulates permitted
    simp only [Program.run]
    rw [reply]
    exact ih _ after

theorem Program.only_of_forall (all : ∀ action, allowed action) (program : Program α) :
    program.Only allowed := by
  induction program with
  | done value => exact .done value
  | print channel text lastWords next ih => exact .print (fun _ _ => all _) ih
  | perform action next ih => exact .perform (all action) ih

/-- A program runs the same over both handlers. -/
theorem Program.run_like (simulates : handler.Simulates other related) (program : Program α)
    (like : Run.Like related run beside) :
    (program.run handler run).1 = (program.run other beside).1 ∧
      Run.Like related (program.run handler run).2 (program.run other beside).2 :=
  have every : program.Only fun _ => True := program.only_of_forall fun _ => trivial
  every.run_like (fun action _ => simulates action) like

theorem Attempt.Only.run_like (simulates : handler.SimulatesOn allowed other related)
    {attempt : Attempt α} (only : attempt.Only allowed) (like : Run.Like related run beside) :
    (attempt.run handler run).1 = (attempt.run other beside).1 ∧
      Run.Like related (attempt.run handler run).2 (attempt.run other beside).2 := by
  obtain ⟨result, after⟩ := Program.Only.run_like simulates only like
  unfold Attempt.run
  generalize (ExceptT.run attempt).run handler run = ended at result after ⊢
  generalize (ExceptT.run attempt).run other beside = ended' at result after ⊢
  obtain ⟨value, run⟩ := ended
  obtain ⟨value', beside⟩ := ended'
  dsimp only at result after
  rw [result]
  cases value' with
  | none => exact ⟨rfl, after⟩
  | some value => exact ⟨rfl, after⟩

end
end PackagePower
