import PackagePower.Program.Run

/-!
# Traces of programs

`program.Trace events result` says that `events` is what can happen while `program` runs,
whoever answers: a text either fits or ends the program, and a reply is any reply. What a
program can do is read off its traces, one lemma for each way to build a program.

`handler.Replays` says which of all replies a handler gives. Every run of a program is one of
its traces, replayed by the handler. This module does NOT look into any world.
-/

namespace PackagePower

variable {α β σ : Type}

/-- The event of a line that a channel took. -/
def Event.line (channel : Channel) (text : String) : Event := .printed channel (text ++ "\n")

theorem Event.line_inj {channel : Channel} {text other : String} :
    Event.line channel text = Event.line channel other ↔ text = other := by
  constructor
  · intro same
    have texts := congrArg String.toList (Event.printed.inj same).2
    rw [String.toList_append, String.toList_append] at texts
    exact String.toList_inj.1 (List.append_cancel_right texts)
  · rintro rfl
    rfl

/-- The event of something logged. -/
def Event.warned (text : String) : Event := .performed (.warn text) ()

/-- What can happen while a program runs, and its result; none where a text did not fit. -/
inductive Program.Trace : Program α → List Event → Option α → Prop where
  | done (value : α) : Trace (.done value) [] (some value)
  | print {channel : Channel} {text : String} {lastWords : List String} {next : Program α}
      {events : List Event} {result : Option α} : Trace next events result →
      Trace (.print channel text lastWords next) (.printed channel text :: events) result
  | cut {channel : Channel} {text : String} {lastWords : List String} {next : Program α} :
      Trace (.print channel text lastWords next) (lastWords.map Event.warned) none
  | perform {action : Action} {next : action.Reply → Program α} {events : List Event}
      {result : Option α} (reply : action.Reply) : Trace (next reply) events result →
      Trace (.perform action next) (.performed action reply :: events) result

/-- The handler, in `world`, gives the replies in `events` and ends in the last world. -/
def Handler.Replays (handler : Handler σ) : σ → List Event → σ → Prop
  | world, [], last => last = world
  | world, .printed _ _ :: rest, last => handler.Replays world rest last
  | world, .performed action reply :: rest, last =>
    ∃ next, handler.answer action world = (reply, next) ∧ handler.Replays next rest last

theorem Handler.replays_append {handler : Handler σ} {world last : σ} {before after : List Event} :
    handler.Replays world (before ++ after) last ↔
      ∃ middle, handler.Replays world before middle ∧ handler.Replays middle after last := by
  induction before generalizing world with
  | nil => simp [Handler.Replays]
  | cons event rest ih =>
    cases event with
    | printed channel text => exact ih
    | performed action reply =>
      constructor
      · intro replays
        obtain ⟨next, answered, later⟩ := replays
        obtain ⟨middle, first, second⟩ := ih.1 later
        exact ⟨middle, ⟨next, answered, first⟩, second⟩
      · intro replays
        obtain ⟨middle, ⟨next, answered, first⟩, second⟩ := replays
        exact ⟨next, answered, ih.2 ⟨middle, first, second⟩⟩

theorem Handler.replays_lines {handler : Handler σ} {world last : σ} {channel : Channel}
    {texts : List String} {rest : List Event} :
    handler.Replays world (texts.map (Event.line channel) ++ rest) last ↔
      handler.Replays world rest last := by
  induction texts with
  | nil => exact Iff.rfl
  | cons text texts ih => exact ih

/-! ## Runs -/

theorem Run.history_record (run : Run σ) (event : Event) :
    (run.record event).history = run.history ++ [event] := by
  simp [Run.record, Run.history]

theorem Run.history_handed (run : Run σ) (channel : Channel) (text : String) :
    (run.handed channel text).history = run.history := by
  cases channel <;> rfl

theorem Run.world_handed (run : Run σ) (channel : Channel) (text : String) :
    (run.handed channel text).world = run.world := by
  cases channel <;> rfl

theorem Run.performed_of_answer {handler : Handler σ} {run : Run σ} {action : Action}
    {reply : action.Reply} {next : σ} (answered : handler.answer action run.world = (reply, next)) :
    run.performed handler action =
      (reply, { run with world := next }.record (.performed action reply)) := by
  unfold Run.performed
  rw [answered]

theorem Run.warned_replays (handler : Handler σ) (lastWords : List String) (run : Run σ) :
    (run.warned handler lastWords).history = run.history ++ lastWords.map Event.warned ∧
      handler.Replays run.world (lastWords.map Event.warned)
        (run.warned handler lastWords).world := by
  induction lastWords generalizing run with
  | nil => exact ⟨by simp [Run.warned], rfl⟩
  | cons text rest ih =>
    obtain ⟨history, replays⟩ := ih (run.performed handler (.warn text)).2
    refine ⟨?_, _, rfl, replays⟩
    change ((run.performed handler (.warn text)).2.warned handler rest).history = _
    rw [history, List.map_cons, List.append_cons]
    congr 1
    exact Run.history_record _ _

/-- A run is a trace, replayed. -/
theorem Program.run_trace (handler : Handler σ) (program : Program α) (run : Run σ) :
    ∃ events, program.Trace events (program.run handler run).1 ∧
      (program.run handler run).2.history = run.history ++ events ∧
      handler.Replays run.world events (program.run handler run).2.world := by
  induction program generalizing run with
  | done value => exact ⟨[], .done value, by simp [Program.run], rfl⟩
  | print channel text lastWords next ih =>
    simp only [Program.run]
    split
    · obtain ⟨events, trace, history, replays⟩ :=
        ih ((run.handed channel text).record (.printed channel text))
      refine ⟨.printed channel text :: events, .print trace, ?_, ?_⟩
      · rw [history, Run.history_record, Run.history_handed, List.append_assoc]
        rfl
      · have same : ((run.handed channel text).record (.printed channel text)).world = run.world :=
          run.world_handed channel text
        rwa [same] at replays
    · obtain ⟨history, replays⟩ := (run.handed channel text).warned_replays handler lastWords
      rw [Run.history_handed] at history
      rw [Run.world_handed] at replays
      exact ⟨_, .cut, history, replays⟩
  | perform action next ih =>
    obtain ⟨events, trace, history, replays⟩ :=
      ih (run.performed handler action).1 (run.performed handler action).2
    refine ⟨_, .perform (run.performed handler action).1 trace, ?_, _, rfl, replays⟩
    refine history.trans ?_
    rw [List.append_cons]
    congr 1
    exact Run.history_record _ _

/-- The bytes that an event leaves on a channel. -/
def Event.bytesOn (channel : Channel) : Event → List UInt8
  | .printed other text => if other = channel then Sink.bytes text else []
  | .performed _ _ => []

/-- The channels hold what was printed, behind what they held `before`. -/
def Run.Faithful (before : Channel → List UInt8) (run : Run σ) : Prop :=
  ∀ channel, (run.sink channel).kept = before channel ++ run.history.flatMap (Event.bytesOn channel)

theorem Run.sink_handed (run : Run σ) (channel other : Channel) (text : String) :
    (run.handed channel text).sink other =
      if channel = other then (run.sink other).write text else run.sink other := by
  cases channel <;> cases other <;> rfl

theorem Sink.kept_write {sink : Sink} {text : String} (fits : sink.fits text) :
    (sink.write text).kept = sink.kept ++ Sink.bytes text := by
  unfold Sink.write
  unfold Sink.fits at fits
  split
  · rfl
  · rename_i room numbered
    simp only [numbered, decide_eq_true_eq] at fits
    rw [List.take_of_length_le fits]

theorem Run.Faithful.printed {before : Channel → List UInt8} {run : Run σ}
    (faithful : run.Faithful before) {channel : Channel} {text : String}
    (fits : (run.sink channel).fits text) :
    ((run.handed channel text).record (.printed channel text)).Faithful before := by
  intro other
  change ((run.handed channel text).sink other).kept = _
  rw [Run.history_record, Run.history_handed, List.flatMap_append, ← List.append_assoc,
    ← faithful other, Run.sink_handed]
  by_cases same : channel = other
  · subst same
    simp [Event.bytesOn, Sink.kept_write fits]
  · simp [Event.bytesOn, same]

theorem Run.Faithful.performed {before : Channel → List UInt8} {run : Run σ}
    (faithful : run.Faithful before) (handler : Handler σ) (action : Action) :
    (run.performed handler action).2.Faithful before := by
  intro channel
  change (run.sink channel).kept = _ ++ ((run.record _).history.flatMap _)
  rw [Run.history_record, List.flatMap_append, faithful channel]
  simp [Event.bytesOn]

/-- A run to a result leaves on the channels all that it printed. -/
theorem Program.run_faithful {handler : Handler σ} {program : Program α}
    {before : Channel → List UInt8} {run after : Run σ} {value : α} (faithful : run.Faithful before)
    (finished : program.run handler run = (some value, after)) : after.Faithful before := by
  induction program generalizing run with
  | done other =>
    cases finished
    exact faithful
  | print channel text lastWords next ih =>
    simp only [Program.run] at finished
    split at finished
    · rename_i fits
      exact ih (faithful.printed fits) finished
    · cases finished
  | perform action next ih => exact ih _ (faithful.performed handler action) finished

/-! ## Channels that take everything -/

def Run.Unlimited (run : Run σ) : Prop := ∀ channel, (run.sink channel).room = none

theorem Run.Unlimited.fits {run : Run σ} (unlimited : run.Unlimited) (channel : Channel)
    (text : String) : (run.sink channel).fits text := by
  unfold Sink.fits
  rw [unlimited channel]

theorem Run.Unlimited.printed {run : Run σ} (unlimited : run.Unlimited) (channel : Channel)
    (text : String) : ((run.handed channel text).record (.printed channel text)).Unlimited := by
  intro other
  change ((run.handed channel text).sink other).room = none
  rw [Run.sink_handed]
  split
  · unfold Sink.write
    rw [unlimited other]
  · exact unlimited other

/-- A trace that the handler replays is the run, where nothing is cut short. -/
theorem Program.run_of_trace {handler : Handler σ} {program : Program α} {events : List Event}
    {value : α} {run : Run σ} {last : σ} (unlimited : run.Unlimited)
    (trace : program.Trace events (some value)) (replays : handler.Replays run.world events last) :
    ∃ after, program.run handler run = (some value, after) ∧
      after.history = run.history ++ events ∧ after.world = last := by
  generalize same : some value = result at trace
  induction trace generalizing run with
  | done other =>
    cases same
    cases replays
    exact ⟨run, rfl, by simp, rfl⟩
  | @print channel text lastWords next events result _ ih =>
    have world := run.world_handed channel text
    obtain ⟨after, finished, history, reached⟩ :=
      ih (unlimited.printed channel text) (world.symm ▸ replays) same
    refine ⟨after, ?_, ?_, reached⟩
    · rw [Program.run, if_pos (unlimited.fits channel text)]
      exact finished
    · rw [history, Run.history_record, Run.history_handed, List.append_assoc]
      rfl
  | cut => cases same
  | @perform action next events result reply _ ih =>
    obtain ⟨world, answered, rest⟩ := replays
    have performed := Run.performed_of_answer answered
    have kept : ({ run with world }.record (.performed action reply)).Unlimited := unlimited
    obtain ⟨after, finished, history, reached⟩ := ih kept rest same
    refine ⟨after, ?_, ?_, reached⟩
    · rw [Program.run, performed]
      exact finished
    · rw [history, Run.history_record, List.append_assoc]
      rfl

/-! ## The start of a run -/

theorem Run.Faithful.of_fresh {run : Run σ} (fresh : run.events = []) :
    run.Faithful fun channel => (run.sink channel).kept := by
  intro channel
  simp [Run.history, fresh]

theorem Run.unlimited_start (world : σ) : ({ world } : Run σ).Unlimited := by
  intro channel
  cases channel <;> rfl

/-- From the start, the channels hold what is printed, and nothing else. -/
theorem Program.run_fresh {handler : Handler σ} {program : Program α} {events : List Event}
    {value : α} {world last : σ} (trace : program.Trace events (some value))
    (replays : handler.Replays world events last) :
    ∃ after, program.run handler { world } = (some value, after) ∧ after.history = events ∧
      after.world = last ∧
      ∀ channel, (after.sink channel).kept = events.flatMap (Event.bytesOn channel) := by
  obtain ⟨after, finished, history, reached⟩ :=
    Program.run_of_trace (Run.unlimited_start world) trace replays
  refine ⟨after, finished, history, reached, ?_⟩
  intro channel
  have kept := Program.run_faithful (.of_fresh rfl) finished channel
  rw [history] at kept
  cases channel <;> exact kept

/-! ## Traces of compound programs -/

theorem Program.Trace.of_bind {program : Program α} {f : α → Program β} {events : List Event}
    {result : Option β} (trace : (program >>= f).Trace events result) :
    (∃ value before after, events = before ++ after ∧ program.Trace before (some value) ∧
      (f value).Trace after result) ∨ (result = none ∧ program.Trace events none) := by
  induction program generalizing events with
  | done value => exact .inl ⟨value, [], events, rfl, .done value, trace⟩
  | print channel text lastWords next ih =>
    cases trace with
    | print rest =>
      rcases ih rest with ⟨value, before, after, rfl, first, second⟩ | ⟨rfl, first⟩
      · exact .inl ⟨value, _ :: before, after, rfl, .print first, second⟩
      · exact .inr ⟨rfl, .print first⟩
    | cut => exact .inr ⟨rfl, .cut⟩
  | perform action next ih =>
    cases trace with
    | perform reply rest =>
      rcases ih reply rest with ⟨value, before, after, rfl, first, second⟩ | ⟨rfl, first⟩
      · exact .inl ⟨value, _ :: before, after, rfl, .perform reply first, second⟩
      · exact .inr ⟨rfl, .perform reply first⟩

theorem Program.Trace.bind {program : Program α} {f : α → Program β} {before after : List Event}
    {value : α} {result : Option β} (first : program.Trace before (some value))
    (second : (f value).Trace after result) : (program >>= f).Trace (before ++ after) result := by
  generalize same : some value = found at first
  induction first with
  | done other =>
    cases same
    exact second
  | print _ ih => exact .print (ih same)
  | cut => cases same
  | perform reply _ ih => exact .perform reply (ih same)

/-- Running in sequence to a result. -/
theorem Program.trace_bind_some {program : Program α} {f : α → Program β} {events : List Event}
    {value : β} : (program >>= f).Trace events (some value) ↔
      ∃ middle before after, events = before ++ after ∧ program.Trace before (some middle) ∧
        (f middle).Trace after (some value) := by
  constructor
  · intro trace
    rcases trace.of_bind with found | ⟨impossible, _⟩
    · exact found
    · cases impossible
  · rintro ⟨middle, before, after, rfl, first, second⟩
    exact first.bind second

@[simp] theorem Program.trace_done {value : α} {events : List Event} {result : Option α} :
    (Program.done value).Trace events result ↔ events = [] ∧ result = some value := by
  constructor
  · rintro ⟨⟩
    exact ⟨rfl, rfl⟩
  · rintro ⟨rfl, rfl⟩
    exact .done value

theorem Program.trace_act {action : Action} {events : List Event} {reply : action.Reply} :
    (Program.act action).Trace events (some reply) ↔ events = [.performed action reply] := by
  constructor
  · intro trace
    cases trace with
    | perform other rest =>
      obtain ⟨rfl, same⟩ := Program.trace_done.1 rest
      cases same
      rfl
  · rintro rfl
    exact .perform reply (.done reply)

theorem Program.trace_sayOrWarn {lastWords : List String} {text : String} {events : List Event}
    {value : Unit} : (Program.sayOrWarn lastWords text).Trace events (some value) ↔
      events = [.line .out text] := by
  constructor
  · intro trace
    cases trace with
    | print rest =>
      obtain ⟨rfl, _⟩ := Program.trace_done.1 rest
      rfl
  · rintro rfl
    exact .print (.done ())

theorem Program.trace_say {text : String} {events : List Event} {value : Unit} :
    (Program.say text).Trace events (some value) ↔ events = [.line .out text] :=
  Program.trace_sayOrWarn

theorem Program.trace_sayAll {lines : List String} {events : List Event} {value : Unit} :
    (Program.sayAll lines).Trace events (some value) ↔ events = lines.map (Event.line .out) := by
  induction lines generalizing events with
  | nil =>
    change (Program.done ()).Trace events (some value) ↔ _
    simp
  | cons text rest ih =>
    change (Program.say text >>= fun _ => Program.sayAll rest).Trace events (some value) ↔ _
    simp only [Program.trace_bind_some, Program.trace_say, ih, List.map_cons]
    constructor
    · rintro ⟨_, _, _, rfl, rfl, rfl⟩
      rfl
    · rintro rfl
      exact ⟨value, _, _, rfl, rfl, rfl⟩

/-- Lines that are cut short are a first part of them. -/
theorem Program.sayAll_cut {lines : List String} {events : List Event}
    (trace : (Program.sayAll lines).Trace events none) :
    ∃ taken, taken <+: lines ∧ events = taken.map (Event.line .out) := by
  induction lines generalizing events with
  | nil =>
    obtain ⟨_, impossible⟩ := Program.trace_done.1 trace
    cases impossible
  | cons text rest ih =>
    change (Program.say text >>= fun _ => Program.sayAll rest).Trace events none at trace
    rcases trace.of_bind with ⟨_, before, after, rfl, first, second⟩ | ⟨_, first⟩
    · obtain ⟨taken, part, rfl⟩ := ih second
      obtain rfl := Program.trace_say.1 first
      exact ⟨text :: taken, List.cons_prefix_cons.2 ⟨rfl, part⟩, rfl⟩
    · cases first with
      | print rest => cases rest
      | cut => exact ⟨[], List.nil_prefix, rfl⟩

end PackagePower
