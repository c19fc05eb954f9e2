import PackagePower.Program.Station
import PackagePower.Proofs.Program.Cut
import PackagePower.Proofs.Program.Only

/-!
# Where faults come from

A fault that an attempt ends with was replied by a device, or it is one that the attempt made
itself. `FaultsIn good` says of a result that its fault, if it has one, is in `good`, and
`RepliesIn good` says so of all replies. `EndsIn good` says of an attempt that it ends with faults
in `good` only, as long as it is replied none but these. There is one lemma for each way to build
an attempt; a stream that takes no more is not among its own faults.
-/

namespace PackagePower

variable {α β : Type} {good : Fault → Prop}

/-- What keeps the operation from its result is in `good`. -/
def FaultsIn (good : Fault → Prop) (result : Except Fault α) : Prop :=
  ∀ fault, result = .error fault → good fault

namespace FaultsIn

theorem ok (value : α) : FaultsIn good (.ok value) := by
  intro fault same
  cases same

theorem error {fault : Fault} (within : good fault) :
    FaultsIn good (.error fault : Except Fault α) := by
  intro other same
  cases same
  exact within

theorem mono {wider : Fault → Prop} {result : Except Fault α} (within : FaultsIn good result)
    (weaker : ∀ fault, good fault → wider fault) : FaultsIn wider result :=
  fun fault failed => weaker fault (within fault failed)

theorem bind {result : Except Fault α} {f : α → Except Fault β} (first : FaultsIn good result)
    (second : ∀ value, FaultsIn good (f value)) : FaultsIn good (result >>= f) := by
  cases result with
  | ok value => exact second value
  | error fault => exact error (first fault rfl)

/-- A fault that is passed on is as good as it was. -/
theorem passed_on {result : Except Fault α} (within : FaultsIn good result) {fault : Fault}
    (failed : result = .error fault) : FaultsIn good (.error fault : Except Fault β) :=
  error (within fault failed)

theorem mapError {ε : Type} {wrap : ε → Fault} (each : ∀ cause, good (wrap cause))
    (result : Except ε α) : FaultsIn good (result.mapError wrap) := by
  cases result with
  | ok value => exact ok value
  | error cause => exact error (each cause)

end FaultsIn

/-- What was replied, if it is a fault, is in `good`. -/
def Event.RepliesIn (good : Fault → Prop) : Event → Prop
  | .performed (.read _) reply => FaultsIn good reply
  | .performed (.write _ _) reply => FaultsIn good reply
  | .performed .readZone reply => FaultsIn good reply
  | .performed (.writeZone _) reply => FaultsIn good reply
  | _ => True

namespace Attempt

/-- Replied none but faults in `good` the attempt ends with none but these. -/
def EndsIn (good : Fault → Prop) (attempt : Attempt α) : Prop :=
  ∀ events fault, attempt.Ends events (some (.error fault)) →
    (∀ event ∈ events, event.RepliesIn good) → good fault

namespace EndsIn

/-- What comes next need only be told of values that the attempt can come to. -/
theorem bind_of_succeeds {attempt : Attempt α} {f : α → Attempt β} (first : attempt.EndsIn good)
    (second : ∀ events value, attempt.Succeeds events value → (f value).EndsIn good) :
    (attempt >>= f).EndsIn good := by
  intro events fault ended replies
  unfold Ends at ended
  rw [ExceptT.run_bind, Program.trace_bind_some] at ended
  obtain ⟨middle, before, after, rfl, begun, rest⟩ := ended
  cases middle with
  | ok value =>
    exact second before value begun after fault rest fun event member =>
      replies event (List.mem_append_right before member)
  | error other =>
    obtain ⟨rfl, same⟩ := Program.trace_done.1 rest
    cases same
    exact first before fault begun fun event member =>
      replies event (List.mem_append_left [] member)

theorem bind {attempt : Attempt α} {f : α → Attempt β} (first : attempt.EndsIn good)
    (second : ∀ value, (f value).EndsIn good) : (attempt >>= f).EndsIn good :=
  bind_of_succeeds first fun _ value _ => second value

theorem ofExcept {result : Except Fault α} (within : FaultsIn good result) :
    (Attempt.ofExcept result).EndsIn good := by
  intro events fault ended _
  obtain ⟨_, same⟩ := Program.trace_done.1 ended
  exact within fault (Option.some.inj same).symm

theorem pure (value : α) : (Pure.pure value : Attempt α).EndsIn good := ofExcept (.ok value)

theorem throw {fault : Fault} (within : good fault) :
    (MonadExcept.throw fault : Attempt α).EndsIn good := ofExcept (.error within)

theorem lift (program : Program α) : (liftM program : Attempt α).EndsIn good := by
  intro events fault ended _
  change (program >>= fun value => .done (Except.ok value)).Trace events _ at ended
  obtain ⟨value, _, _, _, _, rest⟩ := Program.trace_bind_some.1 ended
  cases (Program.trace_done.1 rest).2

theorem print {channel : Channel} {text : String} {lastWords : List String}
    {next : Program (Except Fault α)} (rest : EndsIn good (ExceptT.mk next)) :
    EndsIn good (ExceptT.mk (.print channel text lastWords next)) := by
  intro events fault ended replies
  unfold Ends at ended
  cases ended with
  | print later =>
    exact rest _ fault later fun event member => replies event (List.mem_cons_of_mem _ member)

/-- What goes on after a fault is met by no other fault than the attempt ends with. -/
theorem outcome_bind {attempt : Attempt α} {f : Except Fault α → Attempt β}
    (first : attempt.EndsIn good)
    (second : ∀ result, FaultsIn good result → (f result).EndsIn good) :
    (attempt.outcome >>= f).EndsIn good := by
  intro events fault ended replies
  unfold Ends at ended
  rw [run_outcome_bind, Program.trace_bind_some] at ended
  obtain ⟨result, before, after, rfl, begun, rest⟩ := ended
  refine second result ?_ after fault rest fun event member =>
    replies event (List.mem_append_right before member)
  rintro other rfl
  exact first before other begun fun event member =>
    replies event (List.mem_append_left after member)

theorem read (copy : RegisterCopy) : (Attempt.read copy).EndsIn good := by
  intro events fault ended replies
  cases Program.trace_act.1 ended
  exact replies _ List.mem_cons_self fault rfl

theorem write (copy : RegisterCopy) (value : Word) : (Attempt.write copy value).EndsIn good := by
  intro events fault ended replies
  cases Program.trace_act.1 ended
  exact replies _ List.mem_cons_self fault rfl

theorem readZone : Attempt.readZone.EndsIn good := by
  intro events fault ended replies
  cases Program.trace_act.1 ended
  exact replies _ List.mem_cons_self fault rfl

theorem writeZone (limits : ZoneLimits) : (Attempt.writeZone limits).EndsIn good := by
  intro events fault ended replies
  cases Program.trace_act.1 ended
  exact replies _ List.mem_cons_self fault rfl

theorem mapM {f : α → Attempt β} (each : ∀ value, (f value).EndsIn good) (values : List α) :
    (values.mapM f).EndsIn good := by
  induction values with
  | nil => exact pure []
  | cons value rest ih =>
    rw [List.mapM_cons]
    exact bind (each value) fun _ => bind ih fun _ => pure _

theorem forM {f : α → Attempt PUnit} (each : ∀ value, (f value).EndsIn good) (values : List α) :
    (values.forM f).EndsIn good := by
  induction values with
  | nil => exact pure _
  | cons value rest ih => exact bind (each value) fun _ => ih

end EndsIn
end Attempt

/-! ## Stations -/

variable {ω σ : Type}

/-- Each device replies faults in `good` only. -/
structure Station.RepliesIn (good : Fault → Prop) (station : Station σ) : Prop where
  read : ∀ copy world, FaultsIn good (station.read copy world).1
  write : ∀ copy value world, FaultsIn good (station.write copy value world).1
  readZone : ∀ world, FaultsIn good (station.readZone world)
  writeZone : ∀ limits world, FaultsIn good (station.writeZone limits world).1

theorem Station.RepliesIn.mono {wider : Fault → Prop} {station : Station σ}
    (within : station.RepliesIn good) (weaker : ∀ fault, good fault → wider fault) :
    station.RepliesIn wider where
  read copy world := (within.read copy world).mono weaker
  write copy value world := (within.write copy value world).mono weaker
  readZone world := (within.readZone world).mono weaker
  writeZone limits world := (within.writeZone limits world).mono weaker

theorem Station.RepliesIn.replays {station : Station σ} {operator : Operator ω}
    (within : station.RepliesIn good) {world last : ω × σ} {events : List Event}
    (replays : (operator.at station).Replays world events last) :
    ∀ event ∈ events, event.RepliesIn good := by
  intro event member
  cases event with
  | printed => trivial
  | performed action reply =>
    obtain ⟨_, _, middle, _, _, rfl, _⟩ := Handler.replays_mem member replays
    cases action with
    | ask | decide | warn => trivial
    | read copy => exact within.read copy middle.2
    | write copy value => exact within.write copy value middle.2
    | readZone => exact within.readZone middle.2
    | writeZone limits => exact within.writeZone limits middle.2

/-- Over such devices, and with channels that take everything, a run ends as the attempt does. -/
theorem Attempt.EndsIn.run {attempt : Attempt α} (ends : attempt.EndsIn good)
    {station : Station σ} {operator : Operator ω} (within : station.RepliesIn good)
    {run : Run (ω × σ)} (unlimited : run.Unlimited) :
    FaultsIn good (attempt.run (operator.at station) run).1 := by
  intro fault failed
  obtain ⟨result, _, finished, _⟩ :=
    Program.run_unlimited (ExceptT.run attempt) (operator.at station) unlimited
  obtain ⟨events, trace, _, replays⟩ :=
    Program.run_trace (operator.at station) (ExceptT.run attempt) run
  unfold Attempt.run at failed
  rw [finished] at failed trace
  cases (failed : result = .error fault)
  exact ends events fault trace (within.replays replays)

end PackagePower
