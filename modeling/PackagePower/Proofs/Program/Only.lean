import PackagePower.Proofs.Program.Trace

/-!
# Programs held to some actions

`program.Only allowed` says that `program` comes to no action but those in `allowed`, whatever
it is replied and wherever a channel cuts it short. So nothing else happens in a trace, and what
each of those actions does to a world, a whole trace of them does.
-/

namespace PackagePower

variable {α β : Type} {allowed : Action → Prop}

/-- The event is a text, or an action in `allowed`. -/
def Event.Within (allowed : Action → Prop) : Event → Prop
  | .printed _ _ => True
  | .performed action _ => allowed action

theorem Event.Within.imp {other : Action → Prop} {event : Event} (within : event.Within allowed)
    (weaker : ∀ action, allowed action → other action) : event.Within other := by
  cases event with
  | printed => trivial
  | performed action reply => exact weaker action within

/-- No action outside `allowed` is come to. -/
inductive Program.Only (allowed : Action → Prop) : Program α → Prop where
  | done (value : α) : Only allowed (.done value)
  | print {channel : Channel} {text : String} {lastWords : List String} {next : Program α} :
      (∀ text ∈ lastWords, allowed (.warn text)) → Only allowed next →
      Only allowed (.print channel text lastWords next)
  | perform {action : Action} {next : action.Reply → Program α} : allowed action →
      (∀ reply, Only allowed (next reply)) → Only allowed (.perform action next)

theorem Program.Only.within {program : Program α} {events : List Event} {result : Option α}
    (only : program.Only allowed) (trace : program.Trace events result) :
    ∀ event ∈ events, event.Within allowed := by
  induction only generalizing events with
  | done =>
    obtain ⟨rfl, _⟩ := Program.trace_done.1 trace
    simp
  | print last _ ih =>
    cases trace with
    | print rest =>
      intro event member
      rcases List.mem_cons.1 member with rfl | later
      · trivial
      · exact ih rest event later
    | cut =>
      intro event member
      obtain ⟨text, logged, rfl⟩ := List.mem_map.1 member
      exact last text logged
  | perform permitted _ ih =>
    cases trace with
    | perform reply rest =>
      intro event member
      rcases List.mem_cons.1 member with rfl | later
      · exact permitted
      · exact ih reply rest event later

namespace Handler
variable {σ : Type} {handler : Handler σ} {world last : σ} {events : List Event}

/-- A relation of worlds that each allowed action keeps to relates the first and the last. -/
theorem replays_relates (relates : σ → σ → Prop) (refl : ∀ world, relates world world)
    (trans : ∀ {first second third}, relates first second → relates second third →
      relates first third)
    (each : ∀ action, allowed action → ∀ world, relates world (handler.answer action world).2)
    (only : ∀ event ∈ events, event.Within allowed)
    (replays : handler.Replays world events last) : relates world last := by
  induction events generalizing world with
  | nil =>
    cases replays
    exact refl last
  | cons event rest ih =>
    have later : ∀ event ∈ rest, event.Within allowed :=
      fun event member => only event (List.mem_cons_of_mem _ member)
    cases event with
    | printed channel text => exact ih later replays
    | performed action reply =>
      obtain ⟨next, answered, rest⟩ := replays
      have first := each action (only _ List.mem_cons_self) world
      rw [answered] at first
      exact trans first (ih later rest)

/-- Every reply was given in a world on the way. -/
theorem replays_mem {action : Action} {reply : action.Reply}
    (member : .performed action reply ∈ events) (replays : handler.Replays world events last) :
    ∃ before after middle, events = before ++ .performed action reply :: after ∧
      handler.Replays world before middle ∧ (handler.answer action middle).1 = reply ∧
      handler.Replays middle (.performed action reply :: after) last := by
  obtain ⟨before, after, split⟩ := List.append_of_mem member
  rw [split] at replays
  obtain ⟨middle, first, later⟩ := replays_append.1 replays
  have ⟨next, answered, _⟩ := later
  exact ⟨before, after, middle, split, first, congrArg Prod.fst answered, later⟩

end Handler

namespace Program.Only

theorem bind {program : Program α} {f : α → Program β} (first : program.Only allowed)
    (second : ∀ value, (f value).Only allowed) : (program >>= f).Only allowed := by
  induction first with
  | done value => exact second value
  | print last _ ih => exact .print last ih
  | perform permitted _ ih => exact .perform permitted ih

theorem act {action : Action} (permitted : allowed action) : (Program.act action).Only allowed :=
  .perform permitted fun _ => .done _

theorem sayOrWarn {lastWords : List String} (last : ∀ text ∈ lastWords, allowed (.warn text))
    (text : String) : (Program.sayOrWarn lastWords text).Only allowed := .print last (.done _)

theorem say (text : String) : (Program.say text).Only allowed := sayOrWarn (by simp) text

theorem complain (text : String) : (Program.complain text).Only allowed :=
  .print (by simp) (.done _)

theorem sayAll (lines : List String) : (Program.sayAll lines).Only allowed := by
  induction lines with
  | nil => exact .done ()
  | cons text rest ih => exact bind (say text) fun _ => ih

end Program.Only

/-! ## Attempts -/

/-- No action outside `allowed` is come to. -/
def Attempt.Only (allowed : Action → Prop) (attempt : Attempt α) : Prop :=
  (ExceptT.run attempt).Only allowed

namespace Attempt.Only

theorem bind {attempt : Attempt α} {f : α → Attempt β} (first : attempt.Only allowed)
    (second : ∀ value, (f value).Only allowed) : (attempt >>= f).Only allowed := by
  refine Program.Only.bind first fun result => ?_
  cases result with
  | ok value => exact second value
  | error fault => exact .done _

theorem pure (value : α) : (Pure.pure value : Attempt α).Only allowed := Program.Only.done _

theorem throw (fault : Fault) : (MonadExcept.throw fault : Attempt α).Only allowed :=
  Program.Only.done _

theorem ofExcept (result : Except Fault α) : (Attempt.ofExcept result).Only allowed :=
  Program.Only.done _

theorem lift {program : Program α} (only : program.Only allowed) :
    (liftM program : Attempt α).Only allowed := Program.Only.bind only fun _ => .done _

theorem outcome {attempt : Attempt α} (only : attempt.Only allowed) :
    attempt.outcome.Only allowed := Program.Only.bind only fun _ => .done _

theorem mapM {f : α → Attempt β} (each : ∀ value, (f value).Only allowed) (values : List α) :
    (values.mapM f).Only allowed := by
  induction values with
  | nil => exact pure []
  | cons value rest ih =>
    rw [List.mapM_cons]
    exact bind (each value) fun _ => bind ih fun _ => pure _

theorem forM {f : α → Attempt PUnit} (each : ∀ value, (f value).Only allowed) (values : List α) :
    (values.forM f).Only allowed := by
  induction values with
  | nil => exact pure _
  | cons value rest ih => exact bind (each value) fun _ => ih

end Attempt.Only
end PackagePower
