import PackagePower.Proofs.Program.Trace

/-!
# Traces of attempts

An attempt succeeds over some events if they take it to a value, with no fault and no channel that
cuts it short. Each way to build an attempt has a lemma for that, and a sequence succeeds exactly
where all its parts do.
-/

namespace PackagePower.Attempt

variable {α β : Type}

/-- Over `events` the attempt comes to `value`. -/
def Succeeds (attempt : Attempt α) (events : List Event) (value : α) : Prop :=
  (ExceptT.run attempt).Trace events (some (.ok value))

theorem succeeds_bind {attempt : Attempt α} {f : α → Attempt β} {events : List Event} {value : β} :
    (attempt >>= f).Succeeds events value ↔
      ∃ middle before after, events = before ++ after ∧ attempt.Succeeds before middle ∧
        (f middle).Succeeds after value := by
  unfold Succeeds
  rw [ExceptT.run_bind, Program.trace_bind_some]
  constructor
  · rintro ⟨middle, before, after, rfl, first, second⟩
    cases middle with
    | ok middle => exact ⟨middle, before, after, rfl, first, second⟩
    | error fault => simp at second
  · rintro ⟨middle, before, after, rfl, first, second⟩
    exact ⟨.ok middle, before, after, rfl, first, second⟩

@[simp] theorem succeeds_pure {value found : α} {events : List Event} :
    (pure value : Attempt α).Succeeds events found ↔ events = [] ∧ found = value := by
  simp [Succeeds, eq_comm]

@[simp] theorem succeeds_throw {fault : Fault} {value : α} {events : List Event} :
    ¬ (throw fault : Attempt α).Succeeds events value := by
  simp [Succeeds]

theorem succeeds_lift {program : Program α} {events : List Event} {value : α} :
    (liftM program : Attempt α).Succeeds events value ↔ program.Trace events (some value) := by
  change (program >>= fun found => .done (Except.ok found)).Trace events _ ↔ _
  simp only [Program.trace_bind_some, Program.trace_done, Option.some.injEq, Except.ok.injEq]
  constructor
  · rintro ⟨_, _, _, rfl, trace, rfl, rfl⟩
    simpa using trace
  · intro trace
    exact ⟨value, events, [], by simp, trace, rfl, rfl⟩

theorem succeeds_ofExcept {result : Except Fault α} {events : List Event} {value : α} :
    (ofExcept result).Succeeds events value ↔ events = [] ∧ result = .ok value := by
  change (Program.done result).Trace events _ ↔ _
  simp [eq_comm]

theorem succeeds_read {copy : RegisterCopy} {events : List Event} {value : Word} :
    (read copy).Succeeds events value ↔ events = [.performed (.read copy) (.ok value)] :=
  Program.trace_act

theorem succeeds_write {copy : RegisterCopy} {word : Word} {events : List Event} {value : Unit} :
    (write copy word).Succeeds events value ↔
      events = [.performed (.write copy word) (.ok ())] :=
  Program.trace_act

theorem inRange_eq_ok {α : Type} {checked : Except RangeError α} {value : α} :
    inRange checked = .ok value ↔ checked = .ok value := by
  constructor
  · intro passed
    cases checked with
    | ok found =>
      cases passed
      rfl
    | error cause => cases passed
  · rintro rfl
    rfl

/-! ## Sequences by their first or last part -/

section
variable {events : List Event} {value : β}

theorem exists_last {attempt : Attempt α} {f : α → Attempt β}
    (trace : (attempt >>= f).Succeeds events value) :
    ∃ middle rest, (f middle).Succeeds rest value := by
  obtain ⟨middle, _, rest, _, _, last⟩ := succeeds_bind.1 trace
  exact ⟨middle, rest, last⟩

theorem succeeds_bind_of {attempt : Attempt α} {f : α → Attempt β} {opening : α → List Event}
    (known : ∀ {before : List Event} {middle : α},
      attempt.Succeeds before middle ↔ before = opening middle) :
    (attempt >>= f).Succeeds events value ↔
      ∃ middle rest, events = opening middle ++ rest ∧ (f middle).Succeeds rest value := by
  simp only [succeeds_bind, known]
  constructor
  · rintro ⟨middle, _, rest, rfl, rfl, later⟩
    exact ⟨middle, rest, rfl, later⟩
  · rintro ⟨middle, rest, rfl, later⟩
    exact ⟨middle, _, rest, rfl, rfl, later⟩

theorem succeeds_read_bind {copy : RegisterCopy} {f : Word → Attempt β} :
    (read copy >>= f).Succeeds events value ↔
      ∃ word rest, events = .performed (.read copy) (.ok word) :: rest ∧
        (f word).Succeeds rest value :=
  succeeds_bind_of succeeds_read

theorem succeeds_write_bind {copy : RegisterCopy} {word : Word} {f : Unit → Attempt β} :
    (write copy word >>= f).Succeeds events value ↔
      ∃ rest, events = .performed (.write copy word) (.ok ()) :: rest ∧
        (f ()).Succeeds rest value :=
  (succeeds_bind_of succeeds_write).trans
    ⟨fun ⟨_, found⟩ => found, fun found => ⟨(), found⟩⟩

theorem succeeds_sayAll_bind {lines : List String} {f : Unit → Attempt β} :
    ((liftM (Program.sayAll lines) : Attempt Unit) >>= f).Succeeds events value ↔
      ∃ rest, events = lines.map (Event.line .out) ++ rest ∧ (f ()).Succeeds rest value :=
  (succeeds_bind_of (succeeds_lift.trans Program.trace_sayAll)).trans
    ⟨fun ⟨_, found⟩ => found, fun found => ⟨(), found⟩⟩

theorem succeeds_say_bind {text : String} {f : Unit → Attempt β} :
    ((liftM (Program.say text) : Attempt Unit) >>= f).Succeeds events value ↔
      ∃ rest, events = .line .out text :: rest ∧ (f ()).Succeeds rest value :=
  (succeeds_bind_of (succeeds_lift.trans Program.trace_say)).trans
    ⟨fun ⟨_, found⟩ => found, fun found => ⟨(), found⟩⟩

theorem succeeds_ofExcept_bind {result : Except Fault α} {f : α → Attempt β} :
    (ofExcept result >>= f).Succeeds events value ↔
      ∃ found, result = .ok found ∧ (f found).Succeeds events value := by
  simp only [succeeds_bind, succeeds_ofExcept]
  constructor
  · rintro ⟨found, _, rest, rfl, ⟨rfl, given⟩, later⟩
    exact ⟨found, given, later⟩
  · rintro ⟨found, given, later⟩
    exact ⟨found, [], events, rfl, ⟨rfl, given⟩, later⟩

end

theorem map_ofExcept (f : α → β) (result : Except Fault α) :
    f <$> ofExcept result = ofExcept (f <$> result) := by
  cases result <;> rfl

theorem ofExcept_bind (result : Except Fault α) (f : α → Except Fault β) :
    (ofExcept result >>= fun value => ofExcept (f value)) = ofExcept (result >>= f) := by
  cases result <;> rfl

theorem run_outcome_bind (attempt : Attempt α) (f : Except Fault α → Attempt β) :
    ExceptT.run (attempt.outcome >>= f) =
      ExceptT.run attempt >>= fun result => ExceptT.run (f result) := by
  unfold outcome
  rw [ExceptT.run_bind, ExceptT.run_mk, map_eq_pure_bind, Program.bind_assoc]
  rfl

theorem run_lift_bind (program : Program α) (f : α → Attempt β) :
    ExceptT.run ((liftM program : Attempt α) >>= f) =
      program >>= fun value => ExceptT.run (f value) := by
  rw [ExceptT.run_bind]
  exact Program.bind_assoc _ _ _

theorem discard_eq_bind (attempt : Attempt α) :
    discard attempt = attempt >>= fun _ => pure PUnit.unit :=
  map_eq_pure_bind (fun _ => PUnit.unit) attempt

theorem succeeds_discard {attempt : Attempt α} {events : List Event} {value : PUnit} :
    (discard attempt).Succeeds events value ↔ ∃ found, attempt.Succeeds events found := by
  simp only [discard_eq_bind, succeeds_bind, succeeds_pure]
  constructor
  · rintro ⟨found, _, _, rfl, first, rfl, _⟩
    exact ⟨found, (List.append_nil _).symm ▸ first⟩
  · rintro ⟨found, first⟩
    exact ⟨found, events, [], (List.append_nil _).symm, first, rfl, trivial⟩

/-! ## Attempts to any end -/

/-- Over `events` the attempt comes to `result`, none where a channel did not take a text. -/
def Ends (attempt : Attempt α) (events : List Event) (result : Option (Except Fault α)) : Prop :=
  (ExceptT.run attempt).Trace events result

theorem ends_pure {value : α} {events : List Event} {result : Option (Except Fault α)} :
    (pure value : Attempt α).Ends events result ↔ events = [] ∧ result = some (.ok value) :=
  Program.trace_done

theorem Succeeds.ends_bind {attempt : Attempt α} {f : α → Attempt β} {before after : List Event}
    {value : α} {result : Option (Except Fault β)} (first : attempt.Succeeds before value)
    (second : (f value).Ends after result) : (attempt >>= f).Ends (before ++ after) result := by
  unfold Ends
  rw [ExceptT.run_bind]
  exact Program.Trace.bind first second

theorem succeeds_outcome {attempt : Attempt α} {events : List Event} {result : Except Fault α}
    (trace : attempt.Ends events (some result)) : attempt.outcome.Succeeds events result := by
  unfold outcome Succeeds
  rw [ExceptT.run_mk, map_eq_pure_bind, Program.trace_bind_some]
  exact ⟨result, events, [], (List.append_nil _).symm, trace, .done _⟩

namespace Ends
variable {f : α → Attempt β} {events : List Event} {result : Option (Except Fault β)}

theorem of_read_bind {copy : RegisterCopy} {f : Word → Attempt β}
    (trace : (read copy >>= f).Ends events result) :
    (∃ fault, events = [.performed (.read copy) (.error fault)] ∧ result = some (.error fault)) ∨
      ∃ word rest, events = .performed (.read copy) (.ok word) :: rest ∧
        (f word).Ends rest result := by
  cases trace with
  | perform reply rest =>
    cases reply with
    | ok word => exact .inr ⟨word, _, rfl, rest⟩
    | error fault =>
      obtain ⟨rfl, ended⟩ := Program.trace_done.1 rest
      exact .inl ⟨fault, rfl, ended⟩

theorem of_write_bind {copy : RegisterCopy} {word : Word} {f : Unit → Attempt β}
    (trace : (write copy word >>= f).Ends events result) :
    (∃ fault, events = [.performed (.write copy word) (.error fault)] ∧
        result = some (.error fault)) ∨
      ∃ rest, events = .performed (.write copy word) (.ok ()) :: rest ∧
        (f ()).Ends rest result := by
  cases trace with
  | perform reply rest =>
    cases reply with
    | ok done => exact .inr ⟨_, rfl, rest⟩
    | error fault =>
      obtain ⟨rfl, ended⟩ := Program.trace_done.1 rest
      exact .inl ⟨fault, rfl, ended⟩

theorem of_say_bind {text : String} {f : Unit → Attempt β}
    (trace : ((liftM (Program.say text) : Attempt Unit) >>= f).Ends events result) :
    (events = [] ∧ result = none) ∨
      ∃ rest, events = .line .out text :: rest ∧ (f ()).Ends rest result := by
  cases trace with
  | print rest => exact .inr ⟨_, rfl, rest⟩
  | cut => exact .inl ⟨rfl, rfl⟩

theorem of_ofExcept_bind {checked : Except Fault α}
    (trace : (ofExcept checked >>= f).Ends events result) :
    (∃ fault, checked = .error fault ∧ events = [] ∧ result = some (.error fault)) ∨
      ∃ value, checked = .ok value ∧ (f value).Ends events result := by
  cases checked with
  | ok value => exact .inr ⟨value, rfl, trace⟩
  | error fault =>
    obtain ⟨rfl, ended⟩ := Program.trace_done.1 trace
    exact .inl ⟨fault, rfl, rfl, ended⟩

theorem of_sayAll_bind {lines : List String} {f : Unit → Attempt β}
    (trace : ((liftM (Program.sayAll lines) : Attempt Unit) >>= f).Ends events result) :
    (∃ taken, taken <+: lines ∧ events = taken.map (Event.line .out) ∧ result = none) ∨
      ∃ rest, events = lines.map (Event.line .out) ++ rest ∧ (f ()).Ends rest result := by
  unfold Ends at trace
  rw [run_lift_bind] at trace
  rcases trace.of_bind with ⟨_, before, after, rfl, first, second⟩ | ⟨ended, first⟩
  · obtain rfl := Program.trace_sayAll.1 first
    exact .inr ⟨after, rfl, second⟩
  · obtain ⟨taken, part, rfl⟩ := Program.sayAll_cut first
    exact .inl ⟨taken, part, rfl, ended⟩

end Ends

/-! ## Runs -/

variable {σ : Type} {handler : Handler σ} {attempt : Attempt α} {run after : Run σ} {value : α}

theorem succeeds_of_run (finished : attempt.run handler run = (.ok value, after)) :
    ∃ events, attempt.Succeeds events value ∧ after.history = run.history ++ events ∧
      handler.Replays run.world events after.world := by
  obtain ⟨events, trace, history, replays⟩ := Program.run_trace handler (ExceptT.run attempt) run
  unfold Attempt.run at finished
  split at finished
  · rename_i result last ended
    cases finished
    rw [ended] at trace history replays
    exact ⟨events, trace, history, replays⟩
  · cases finished

theorem run_ends (handler : Handler σ) (attempt : Attempt α) (run : Run σ) :
    ∃ events result, attempt.Ends events result ∧
      (attempt.run handler run).1 = result.getD (.error .brokenStream) ∧
      (attempt.run handler run).2.history = run.history ++ events ∧
      handler.Replays run.world events (attempt.run handler run).2.world := by
  obtain ⟨events, trace, history, replays⟩ := Program.run_trace handler (ExceptT.run attempt) run
  unfold Attempt.run
  rcases ended : Program.run handler (ExceptT.run attempt) run with ⟨_ | result, after⟩ <;>
    rw [ended] at trace history replays
  · exact ⟨events, none, trace, rfl, history, replays⟩
  · exact ⟨events, some result, trace, rfl, history, replays⟩

/-- What an attempt leaves is what its program leaves. -/
theorem run_snd (handler : Handler σ) (attempt : Attempt α) (run : Run σ) :
    (Program.run handler (ExceptT.run attempt) run).2 = (attempt.run handler run).2 := by
  unfold Attempt.run
  rcases Program.run handler (ExceptT.run attempt) run with ⟨_ | result, after⟩ <;> rfl

theorem run_bind (handler : Handler σ) (attempt : Attempt α) (f : α → Attempt β) (run : Run σ) :
    (attempt >>= f).run handler run =
      match attempt.run handler run with
      | (.ok value, after) => (f value).run handler after
      | (.error fault, after) => (.error fault, after) := by
  unfold Attempt.run
  rw [ExceptT.run_bind, Program.run_bind]
  rcases Program.run handler (ExceptT.run attempt) run with ⟨_ | ⟨_ | _⟩, after⟩ <;> rfl

theorem faithful_of_run {before : Channel → List UInt8} (faithful : run.Faithful before)
    (finished : attempt.run handler run = (.ok value, after)) : after.Faithful before := by
  unfold Attempt.run at finished
  split at finished
  · rename_i result last ended
    cases finished
    exact Program.run_faithful faithful ended
  · cases finished

theorem run_of_succeeds {events : List Event} {last : σ} (unlimited : run.Unlimited)
    (trace : attempt.Succeeds events value) (replays : handler.Replays run.world events last) :
    ∃ after, attempt.run handler run = (.ok value, after) ∧
      after.history = run.history ++ events ∧ after.world = last := by
  obtain ⟨after, finished, history, world⟩ := Program.run_of_trace unlimited trace replays
  refine ⟨after, ?_, history, world⟩
  unfold Attempt.run
  rw [finished]

end PackagePower.Attempt
