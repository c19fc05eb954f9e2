import PackagePower.Proofs.Program.Attempt
import PackagePower.Proofs.Program.Only
import PackagePower.Session.Step

/-!
# Traces of a session

What each state of a session can do. `SessionState.Allows` bounds the actions of a step, and
only a state with writes to confirm allows a decision or a write. A queue comes out of the
answers, readings and shown lines that `propose_succeeds` and `syncLimits_confirm` give; a step
that confirms asks once and, after a yes, attempts that very write once.
-/

namespace PackagePower

/-- The action that carries the write out. -/
def PendingWrite.action : PendingWrite → Action
  | .register copy _ next => .write copy next
  | .zone limits => .writeZone limits

/-- The event of an attempt at the write. -/
def PendingWrite.attempted (reply : Except Fault Unit) : PendingWrite → Event
  | .register copy _ next => .performed (.write copy next) reply
  | .zone limits => .performed (.writeZone limits) reply

/-- The event of the line that shows the write. -/
def PendingWrite.shown (pending : PendingWrite) : Event := .line .out pending.describe

/-- Nothing but logging. -/
def Action.Logs : Action → Prop
  | .warn _ => True
  | _ => False

/-- No decision and no write. -/
def Action.Quiet : Action → Prop
  | .decide _ => False
  | .write _ _ => False
  | .writeZone _ => False
  | _ => True

theorem Action.Logs.quiet {action : Action} (logs : action.Logs) : action.Quiet := by
  cases action with
  | warn => trivial
  | ask | read | readZone | decide | write | writeZone => exact logs.elim

/-- The actions that a step from a state may come to. -/
def SessionState.Allows : SessionState → Action → Prop
  | .idle, .ask _ => True
  | .showStatus, .read _ => True
  | .showStatus, .readZone => True
  | .setLimits, .ask _ => True
  | .setLimits, .read _ => True
  | .syncLimits, .ask _ => True
  | .syncLimits, .read _ => True
  | .confirm (pending :: _), action =>
    action = .decide pending ∨ action = pending.action ∨ action.Logs
  | _, _ => False

theorem SessionState.Allows.quiet {state : SessionState} {action : Action}
    (allowed : state.Allows action)
    (elsewhere : ∀ pending rest, state ≠ .confirm (pending :: rest)) : action.Quiet := by
  cases action with
  | ask | read | readZone | warn => trivial
  | decide | write | writeZone =>
    cases state with
    | idle | showStatus | setLimits | syncLimits | exit => exact allowed
    | confirm queue =>
      cases queue with
      | nil => exact allowed
      | cons pending rest => exact elsewhere pending rest rfl

namespace Session
open Attempt

/-- `line` types watts that a limit may be set to. -/
def Typed (line : String) (watts : Binary64) : Prop :=
  ∃ answer, answerOf line = some answer ∧ Quantity.watts answer = .ok watts ∧
    checkWatts mostWatts watts = .ok watts

/-- The event of a copy that was read. -/
def readingOf (reading : RegisterCopy × Word) : Event :=
  .performed (.read reading.1) (.ok reading.2)

/-- The write of new limits to a copy that was read. -/
def limited (first second : LimitUnits) (reading : RegisterCopy × Word) : PendingWrite :=
  .register reading.1 reading.2 (reading.2.withLimits first second)

/-! ## Questions -/

theorem trace_ask {label : String} {events : List Event} {answer : Option String} :
    (ask label).Trace events (some answer) ↔
      ∃ line, events = [.performed (.ask label) line] ∧ answer = line.bind answerOf := by
  unfold ask
  rw [Program.trace_bind_some]
  constructor
  · rintro ⟨line, before, after, rfl, asked, rest⟩
    obtain ⟨rfl, same⟩ := Program.trace_done.1 rest
    cases Program.trace_act.1 asked
    exact ⟨line, rfl, Option.some.inj same⟩
  · rintro ⟨line, rfl, rfl⟩
    exact ⟨line, _, [], rfl, Program.trace_act.2 rfl, Program.trace_done.2 ⟨rfl, rfl⟩⟩

theorem succeeds_ask {label answer : String} {events : List Event}
    (asked : (liftM (ask label) : Attempt (Option String)).Succeeds events (some answer)) :
    ∃ line, events = [.performed (.ask label) (some line)] ∧ answerOf line = some answer := by
  obtain ⟨line, rfl, same⟩ := trace_ask.1 (succeeds_lift.1 asked)
  obtain ⟨text, rfl, given⟩ := Option.bind_eq_some_iff.1 same.symm
  exact ⟨text, rfl, given⟩

theorem eq_of_checkWatts {limit watts found : Binary64}
    (accepted : checkWatts limit watts = .ok found) : found = watts := by
  unfold checkWatts at accepted
  split at accepted
  · cases accepted
  · split at accepted <;> cases accepted
    rfl

theorem askWatts_some {label : String} {events : List Event} {watts : Binary64}
    (asked : (askWatts label).Succeeds events (some watts)) :
    ∃ line, events = [.performed (.ask label) (some line)] ∧ Typed line watts := by
  obtain ⟨answer, _, _, rfl, prompted, judged⟩ := succeeds_bind.1 asked
  cases answer with
  | none => simp at judged
  | some answer =>
    obtain ⟨line, rfl, given⟩ := succeeds_ask prompted
    simp only [map_eq_pure_bind, succeeds_ofExcept_bind, inRange_eq_ok, succeeds_pure,
      Option.some.injEq] at judged
    obtain ⟨typed, read, checked, accepted, rfl, rfl⟩ := judged
    cases eq_of_checkWatts accepted
    exact ⟨line, rfl, answer, given, read, accepted⟩

theorem canceled_succeeds {events : List Event} {next : SessionState}
    (trace : canceled.Succeeds events next) : next = .idle := by
  obtain ⟨_, _, last⟩ := exists_last trace
  exact (succeeds_pure.1 last).2

theorem menu_succeeds {events : List Event} {next : SessionState}
    (trace : menu.Succeeds events next) (queue : List PendingWrite) : next ≠ .confirm queue := by
  rintro rfl
  obtain ⟨_, _, trace₁⟩ := exists_last trace
  obtain ⟨answer, _, trace₂⟩ := exists_last trace₁
  cases answer with
  | none =>
    obtain ⟨_, _, last⟩ := exists_last trace₂
    cases (succeeds_pure.1 last).2
  | some answer =>
    dsimp only at trace₂
    split at trace₂
    · cases (succeeds_pure.1 trace₂).2
    · cases (succeeds_pure.1 trace₂).2
    · cases (succeeds_pure.1 trace₂).2
    · obtain ⟨_, _, last⟩ := exists_last trace₂
      cases (succeeds_pure.1 last).2
    · obtain ⟨_, _, last⟩ := exists_last trace₂
      cases (succeeds_pure.1 last).2

theorem showStatus_succeeds {panel : Panel} {events : List Event} {next : SessionState}
    (trace : (showStatus panel).Succeeds events next) : next = .idle := by
  obtain ⟨_, _, trace₁⟩ := exists_last trace
  obtain ⟨_, _, trace₂⟩ := exists_last trace₁
  obtain ⟨_, _, trace₃⟩ := exists_last trace₂
  obtain ⟨_, _, trace₄⟩ := exists_last trace₃
  obtain ⟨_, _, last⟩ := exists_last trace₄
  exact (succeeds_pure.1 last).2

/-! ## Queues -/

theorem preview_succeeds {queue : List PendingWrite} {events : List Event} {next : SessionState} :
    (preview queue).Succeeds events next ↔
      events = queue.map PendingWrite.shown ∧ next = .confirm queue := by
  unfold preview
  simp only [succeeds_bind, succeeds_lift, Program.trace_sayAll, succeeds_pure, List.map_map]
  constructor
  · rintro ⟨_, before, after, rfl, rfl, rfl, rfl⟩
    exact ⟨List.append_nil _, rfl⟩
  · rintro ⟨rfl, rfl⟩
    exact ⟨(), _, [], (List.append_nil _).symm, rfl, rfl, rfl⟩

theorem limitWrite_succeeds {first second : LimitUnits} {copy : RegisterCopy} {events : List Event}
    {pending : PendingWrite} : (limitWrite first second copy).Succeeds events pending ↔
      ∃ value, events = [readingOf (copy, value)] ∧
        pending = limited first second (copy, value) := by
  unfold limitWrite
  simp only [succeeds_read_bind, succeeds_pure]
  constructor
  · rintro ⟨value, _, rfl, rfl, rfl⟩
    exact ⟨value, rfl, rfl⟩
  · rintro ⟨value, rfl, rfl⟩
    exact ⟨value, [], rfl, rfl, rfl⟩

theorem mapM_limitWrite_succeeds {first second : LimitUnits} {copies : List RegisterCopy}
    {events : List Event} {registers : List PendingWrite} :
    (copies.mapM (limitWrite first second)).Succeeds events registers ↔
      ∃ readings : List (RegisterCopy × Word), readings.map Prod.fst = copies ∧
        events = readings.map readingOf ∧
        registers = readings.map (limited first second) := by
  induction copies generalizing events registers with
  | nil =>
    simp only [List.mapM_nil, succeeds_pure, List.map_eq_nil_iff]
    constructor
    · rintro ⟨rfl, rfl⟩
      exact ⟨[], rfl, rfl, rfl⟩
    · rintro ⟨_, rfl, rfl, rfl⟩
      exact ⟨rfl, rfl⟩
  | cons copy rest ih =>
    simp only [List.mapM_cons, succeeds_bind, limitWrite_succeeds, ih, succeeds_pure]
    constructor
    · rintro ⟨_, _, _, rfl, ⟨value, rfl, rfl⟩, _, _, _, rfl, ⟨readings, rfl, rfl, rfl⟩, rfl, rfl⟩
      exact ⟨(copy, value) :: readings, rfl, by simp, rfl⟩
    · rintro ⟨readings, copied, rfl, rfl⟩
      obtain ⟨⟨_, value⟩, later, rfl, rfl, rfl⟩ := List.map_eq_cons_iff.1 copied
      exact ⟨_, _, _, rfl, ⟨value, rfl, rfl⟩, _, _, [], (List.append_nil _).symm,
        ⟨later, rfl, rfl, rfl⟩, rfl, rfl⟩

/-- What a queue of new limits comes out of. -/
theorem propose_succeeds {panel : Panel} {target : WriteTarget} {watts₁ watts₂ : Binary64}
    {events : List Event} {next : SessionState}
    (trace : (propose panel target watts₁ watts₂).Succeeds events next) :
    ∃ (first second : LimitUnits) (zone : ZoneLimits) (readings : List (RegisterCopy × Word)),
      panel.unit.limitUnits watts₁ = .ok first ∧
      panel.unit.limitUnits watts₂ = .ok second ∧ readings.map Prod.fst = copies target ∧
      microwatts watts₁ = .ok zone.first ∧ microwatts watts₂ = .ok zone.second ∧
      next = .confirm (readings.map (limited first second) ++ [.zone zone]) ∧
      events = readings.map readingOf ++ .line .out (limitLine panel.unit first second) ::
        (readings.map (limited first second) ++ [PendingWrite.zone zone]).map
          PendingWrite.shown := by
  unfold propose at trace
  simp only [succeeds_ofExcept_bind, inRange_eq_ok] at trace
  obtain ⟨first, firstUnits, second, secondUnits, trace₁⟩ := trace
  obtain ⟨_, _, _, rfl, read, trace₂⟩ := succeeds_bind.1 trace₁
  obtain ⟨readings, copied, rfl, rfl⟩ := mapM_limitWrite_succeeds.1 read
  simp only [succeeds_ofExcept_bind, succeeds_say_bind, inRange_eq_ok, preview_succeeds] at trace₂
  obtain ⟨zoneFirst, firstZone, zoneSecond, secondZone, _, rfl, rfl, rfl⟩ := trace₂
  exact ⟨first, second, ⟨zoneFirst, zoneSecond⟩, readings, firstUnits, secondUnits, copied,
    firstZone, secondZone, rfl, rfl⟩

/-- A queue of new limits follows two answers in watts. -/
theorem setLimits_confirm {panel : Panel} {events : List Event} {queue : List PendingWrite}
    (trace : (setLimits panel).Succeeds events (.confirm queue)) :
    ∃ line₁ line₂ watts₁ watts₂ target before after, Typed line₁ watts₁ ∧ Typed line₂ watts₂ ∧
      (propose panel target watts₁ watts₂).Succeeds after (.confirm queue) ∧
      events = .performed (.ask "PL1 watts (q to cancel): ") (some line₁) ::
        .performed (.ask "PL2 watts (q to cancel): ") (some line₂) :: (before ++ after) := by
  obtain ⟨found, _, _, rfl, asked₁, trace₁⟩ := succeeds_bind.1 trace
  cases found with
  | none => cases canceled_succeeds trace₁
  | some watts₁ =>
    obtain ⟨line₁, rfl, typed₁⟩ := askWatts_some asked₁
    obtain ⟨found, _, _, rfl, asked₂, trace₂⟩ := succeeds_bind.1 trace₁
    cases found with
    | none => cases canceled_succeeds trace₂
    | some watts₂ =>
      obtain ⟨line₂, rfl, typed₂⟩ := askWatts_some asked₂
      obtain ⟨_, told, _, rfl, _, trace₃⟩ := succeeds_bind.1 trace₂
      obtain ⟨answer, chosen, last, rfl, _, trace₄⟩ := succeeds_bind.1 trace₃
      cases answer with
      | none => cases canceled_succeeds trace₄
      | some answer =>
        cases picked : (Menu.pick? answer : Option WriteTarget) with
        | none => simp [picked] at trace₄
        | some target =>
          simp only [picked] at trace₄
          exact ⟨line₁, line₂, watts₁, watts₂, target, told ++ chosen, last, typed₁, typed₂, trace₄,
            by simp⟩

/-- A queue that makes one copy like the other has one write. -/
theorem syncLimits_confirm {events : List Event} {queue : List PendingWrite}
    (trace : syncLimits.Succeeds events (.confirm queue)) :
    ∃ direction before value current,
      queue = [PendingWrite.register (ends direction).2 current value] ∧
      events = before ++ readingOf ((ends direction).1, value) ::
        readingOf ((ends direction).2, current) :: queue.map PendingWrite.shown := by
  obtain ⟨_, told, _, rfl, _, trace₁⟩ := succeeds_bind.1 trace
  obtain ⟨answer, chosen, _, rfl, _, trace₂⟩ := succeeds_bind.1 trace₁
  cases answer with
  | none => cases canceled_succeeds trace₂
  | some answer =>
    cases picked : (Menu.pick? answer : Option SyncDirection) with
    | none => simp [picked] at trace₂
    | some direction =>
      simp only [picked, succeeds_read_bind, preview_succeeds, SessionState.confirm.injEq] at trace₂
      obtain ⟨value, _, rfl, current, _, rfl, rfl, rfl⟩ := trace₂
      exact ⟨direction, told ++ chosen, value, current, rfl, by simp [readingOf]⟩

/-! ## Steps -/

/-- Carrying a write out is one attempt, whatever is made of the reply. -/
theorem perform_trace {α : Type} {pending : PendingWrite} {f : Except Fault Unit → Program α}
    {events : List Event} {result : Option α}
    (trace : (ExceptT.run pending.perform >>= f).Trace events result) :
    ∃ reply tail, events = pending.attempted reply :: tail ∧ (f reply).Trace tail result := by
  cases pending with
  | register copy current next =>
    change Program.Trace (.perform (.write copy next) _) events result at trace
    cases trace with
    | perform reply rest => exact ⟨reply, _, rfl, rest⟩
  | zone limits =>
    change Program.Trace (.perform (.writeZone limits) _) events result at trace
    cases trace with
    | perform reply rest => exact ⟨reply, _, rfl, rest⟩

theorem trace_perform (pending : PendingWrite) (reply : Except Fault Unit) :
    (ExceptT.run pending.perform).Trace [pending.attempted reply] (some reply) := by
  cases pending <;> exact Program.trace_act.2 rfl

theorem succeeds_perform {pending : PendingWrite} {events : List Event}
    {reply : Except Fault Unit} (trace : pending.perform.outcome.Succeeds events reply) :
    events = [pending.attempted reply] := by
  obtain ⟨found, tail, rfl, rest⟩ := perform_trace trace
  obtain ⟨rfl, same⟩ := Program.trace_done.1 rest
  cases same
  rfl

theorem confirm_succeeds {pending : PendingWrite} {rest : List PendingWrite} {events : List Event}
    {next : SessionState} (trace : (confirm (pending :: rest)).Succeeds events next) :
    next = .confirm rest ∧
      (events = [.performed (.decide pending) true, pending.attempted (.ok ()),
          .line .out pending.receipt] ∨
        events = [.performed (.decide pending) false,
          .line .out s!"Skipped: {pending.question}"]) := by
  obtain ⟨yes, _, _, rfl, decided, trace₁⟩ := succeeds_bind.1 trace
  cases Program.trace_act.1 (succeeds_lift.1 decided)
  cases yes with
  | false =>
    obtain ⟨_, rfl, last⟩ := succeeds_say_bind.1 trace₁
    obtain ⟨rfl, rfl⟩ := succeeds_pure.1 last
    exact ⟨rfl, .inr rfl⟩
  | true =>
    obtain ⟨outcome, _, _, rfl, attempted, trace₂⟩ := succeeds_bind.1 trace₁
    cases succeeds_perform attempted
    cases outcome with
    | ok =>
      obtain ⟨_, _, _, rfl, told, last⟩ := succeeds_bind.1 trace₂
      cases Program.trace_sayOrWarn.1 (succeeds_lift.1 told)
      obtain ⟨rfl, rfl⟩ := succeeds_pure.1 last
      exact ⟨rfl, .inl rfl⟩
    | error =>
      obtain ⟨_, _, last⟩ := exists_last trace₂
      exact (succeeds_throw last).elim

/-- One decision; after a yes one attempt at the write; then nothing but texts and logging. -/
inductive Decided (pending : PendingWrite) : List Event → Prop where
  | refused {tail : List Event} : (∀ event ∈ tail, event.Within Action.Logs) →
      Decided pending (.performed (.decide pending) false :: tail)
  | approved {tail : List Event} (reply : Except Fault Unit) :
      (∀ event ∈ tail, event.Within Action.Logs) →
      Decided pending (.performed (.decide pending) true :: pending.attempted reply :: tail)

theorem quiet_of_logs {events : List Event} (logs : ∀ event ∈ events, event.Within Action.Logs) :
    ∀ event ∈ events, event.Within Action.Quiet :=
  fun event member => (logs event member).imp fun _ => Action.Logs.quiet

theorem Decided.append {pending : PendingWrite} {events later : List Event}
    (decided : Decided pending events) (quiet : ∀ event ∈ later, event.Within Action.Logs) :
    Decided pending (events ++ later) := by
  cases decided with
  | refused first => exact .refused (List.forall_mem_append.2 ⟨first, quiet⟩)
  | approved reply first => exact .approved reply (List.forall_mem_append.2 ⟨first, quiet⟩)

theorem confirm_trace {pending : PendingWrite} {rest : List PendingWrite} {events : List Event}
    {result : Option (Except Fault SessionState)}
    (trace : (ExceptT.run (confirm (pending :: rest))).Trace events result) :
    Decided pending events := by
  change Program.Trace (.perform (.decide pending) _) events result at trace
  cases trace with
  | perform yes trace₁ =>
    cases yes with
    | false =>
      refine .refused (Program.Only.within ?_ trace₁)
      exact Attempt.Only.bind (.lift (.say _)) fun _ => .pure _
    | true =>
      change (ExceptT.run (pending.perform.outcome >>= _)).Trace _ _ at trace₁
      rw [run_outcome_bind] at trace₁
      obtain ⟨reply, tail, rfl, trace₂⟩ := perform_trace trace₁
      refine .approved reply (Program.Only.within ?_ trace₂)
      cases reply with
      | ok => exact Attempt.Only.bind (.lift (.sayOrWarn (fun _ _ => trivial) _)) fun _ => .pure _
      | error fault =>
        exact Attempt.Only.bind (.forM (fun _ => .lift (.act trivial)) _) fun _ => .throw _

theorem step_of_succeeds {panel : Panel} {state next : SessionState} {events : List Event}
    (trace : (advance panel state).Succeeds events next) :
    (step panel state).Trace events (some next) :=
  Program.trace_bind_some.2
    ⟨.ok next, events, [], (List.append_nil _).symm, trace, .done next⟩

theorem step_of_fault {panel : Panel} {state : SessionState} {events : List Event} {fault : Fault}
    (trace : (advance panel state).Ends events (some (.error fault))) :
    (step panel state).Trace
      (events ++ [.line .err s!"error: {fault.message}", .line .out ""]) (some .idle) :=
  Program.Trace.bind trace (.print (.print (.done _)))

/-- A step that is not cut short: what the state does, or a report and the menu again. -/
theorem step_some {panel : Panel} {state next : SessionState} {events : List Event}
    (trace : (step panel state).Trace events (some next)) :
    (advance panel state).Succeeds events next ∨ next = .idle := by
  obtain ⟨outcome, before, after, rfl, first, rest⟩ := Program.trace_bind_some.1 trace
  cases outcome with
  | ok found =>
    obtain ⟨rfl, same⟩ := Program.trace_done.1 rest
    cases same
    rw [List.append_nil]
    exact .inl first
  | error fault =>
    obtain ⟨_, _, _, rfl, _, told⟩ := Program.trace_bind_some.1 rest
    obtain ⟨_, _, _, rfl, _, last⟩ := Program.trace_bind_some.1 told
    exact .inr (Option.some.inj (Program.trace_done.1 last).2)

/-- Where a queue comes from: a proposal, a copy to be made, or a decision about its first write. -/
theorem step_queue {panel : Panel} {state : SessionState} {events : List Event}
    {queue : List PendingWrite} (trace : (step panel state).Trace events (some (.confirm queue))) :
    (state = .setLimits ∧ (setLimits panel).Succeeds events (.confirm queue)) ∨
      (state = .syncLimits ∧ syncLimits.Succeeds events (.confirm queue)) ∨
      ∃ pending, state = .confirm (pending :: queue) := by
  rcases step_some trace with reached | impossible
  · cases state with
    | idle => exact (menu_succeeds reached queue rfl).elim
    | showStatus => cases showStatus_succeeds reached
    | setLimits => exact .inl ⟨rfl, reached⟩
    | syncLimits => exact .inr (.inl ⟨rfl, reached⟩)
    | confirm before =>
      cases before with
      | nil =>
        obtain ⟨_, _, last⟩ := exists_last reached
        cases (succeeds_pure.1 last).2
      | cons pending rest =>
        cases (confirm_succeeds reached).1
        exact .inr (.inr ⟨pending, rfl⟩)
    | exit => cases (succeeds_pure.1 reached).2
  · cases impossible

theorem step_only {panel : Panel} {state : SessionState} {allowed : Action → Prop}
    (only : (advance panel state).Only allowed) : (step panel state).Only allowed := by
  refine Program.Only.bind only fun outcome => ?_
  cases outcome with
  | ok next => exact .done next
  | error fault => exact .bind (.complain _) fun _ => .bind (.say _) fun _ => .done _

theorem ask_only {allowed : Action → Prop} {label : String} (permitted : allowed (.ask label)) :
    (ask label).Only allowed :=
  .bind (.act permitted) fun _ => .done _

theorem askWatts_only {allowed : Action → Prop} {label : String}
    (permitted : allowed (.ask label)) : (askWatts label).Only allowed := by
  refine .bind (.lift (ask_only permitted)) fun answer => ?_
  cases answer with
  | none => exact .pure none
  | some answer =>
    simp only [map_eq_pure_bind]
    exact .bind (.ofExcept _) fun _ => .bind (.ofExcept _) fun _ => .pure _

theorem canceled_only {allowed : Action → Prop} : canceled.Only allowed :=
  .bind (.lift (.sayAll _)) fun _ => .pure _

theorem preview_only {allowed : Action → Prop} (queue : List PendingWrite) :
    (preview queue).Only allowed :=
  .bind (.lift (.sayAll _)) fun _ => .pure _

theorem read_only {allowed : Action → Prop} {copy : RegisterCopy}
    (permitted : allowed (.read copy)) : (Attempt.read copy).Only allowed :=
  Program.Only.act permitted

theorem menu_only : menu.Only SessionState.idle.Allows := by
  refine .bind (.lift (.sayAll _)) fun _ => .bind (.lift (ask_only trivial)) fun answer => ?_
  cases answer with
  | none => exact .bind (.lift (.say _)) fun _ => .pure _
  | some answer =>
    dsimp only
    split
    · exact .pure _
    · exact .pure _
    · exact .pure _
    · exact .bind (.lift (.say _)) fun _ => .pure _
    · exact .bind (.lift (.sayAll _)) fun _ => .pure _

theorem showCopy_only (panel : Panel) (copy : RegisterCopy) :
    (showCopy panel copy).Only SessionState.showStatus.Allows :=
  .bind (read_only trivial) fun _ => .lift (.sayAll _)

theorem showStatus_only (panel : Panel) :
    (showStatus panel).Only SessionState.showStatus.Allows := by
  have zone : Attempt.readZone.Only SessionState.showStatus.Allows := Program.Only.act trivial
  exact .bind (showCopy_only panel _) fun _ => .bind (showCopy_only panel _) fun _ =>
    .bind (.outcome zone) fun _ => .bind (.lift (.sayAll _)) fun _ =>
      .bind (.lift (.say _)) fun _ => .pure _

theorem propose_only (panel : Panel) (target : WriteTarget) (watts₁ watts₂ : Binary64) :
    (propose panel target watts₁ watts₂).Only SessionState.setLimits.Allows := by
  have register (first second : LimitUnits) (copy : RegisterCopy) :
      (limitWrite first second copy).Only SessionState.setLimits.Allows :=
    .bind (read_only trivial) fun _ => .pure _
  exact .bind (.ofExcept _) fun first => .bind (.ofExcept _) fun second =>
    .bind (.mapM (register first second) _) fun _ => .bind (.ofExcept _) fun _ =>
      .bind (.ofExcept _) fun _ => .bind (.lift (.say _)) fun _ => preview_only _

theorem setLimits_only (panel : Panel) : (setLimits panel).Only SessionState.setLimits.Allows := by
  refine .bind (askWatts_only trivial) fun watts₁ => ?_
  cases watts₁ with
  | none => exact canceled_only
  | some watts₁ =>
    refine .bind (askWatts_only trivial) fun watts₂ => ?_
    cases watts₂ with
    | none => exact canceled_only
    | some watts₂ =>
      refine .bind (.lift (.say _)) fun _ => .bind (.lift (ask_only trivial)) fun answer => ?_
      cases answer with
      | none => exact canceled_only
      | some answer =>
        dsimp only
        split
        · exact .throw _
        · exact propose_only panel _ watts₁ watts₂

theorem syncLimits_only : syncLimits.Only SessionState.syncLimits.Allows := by
  refine .bind (.lift (.say _)) fun _ => .bind (.lift (ask_only trivial)) fun answer => ?_
  cases answer with
  | none => exact canceled_only
  | some answer =>
    dsimp only
    split
    · exact .throw _
    · exact .bind (read_only trivial) fun _ => .bind (read_only trivial) fun _ => preview_only _

theorem step_confirm {panel : Panel} {pending : PendingWrite} {rest : List PendingWrite}
    {events : List Event} {result : Option SessionState}
    (trace : (step panel (.confirm (pending :: rest))).Trace events result) :
    Decided pending events := by
  rcases trace.of_bind with ⟨outcome, before, after, rfl, first, second⟩ | ⟨_, first⟩
  · have quiet : ∀ event ∈ after, event.Within Action.Logs := by
      refine Program.Only.within ?_ second
      cases outcome with
      | ok next => exact .done next
      | error fault => exact .bind (.complain _) fun _ => .bind (.say _) fun _ => .done _
    exact (confirm_trace first).append quiet
  · exact confirm_trace first

theorem confirm_only (pending : PendingWrite) (rest : List PendingWrite) :
    (confirm (pending :: rest)).Only (SessionState.confirm (pending :: rest)).Allows := by
  have logs (text : String) : (SessionState.confirm (pending :: rest)).Allows (.warn text) :=
    .inr (.inr trivial)
  have performs : pending.perform.Only (SessionState.confirm (pending :: rest)).Allows := by
    cases pending with
    | register | zone => exact Program.Only.act (.inr (.inl rfl))
  refine .bind (.lift (.act (.inl rfl))) fun yes => ?_
  cases yes with
  | false => exact .bind (.lift (.say _)) fun _ => .pure _
  | true =>
    refine .bind (.outcome performs) fun outcome => ?_
    cases outcome with
    | ok => exact .bind (.lift (.sayOrWarn (fun text _ => logs text) _)) fun _ => .pure _
    | error fault => exact .bind (.forM (fun text => .lift (.act (logs text))) _) fun _ => .throw _

/-- A step comes to no action but those of its state. -/
theorem step_allows (panel : Panel) (state : SessionState) :
    (step panel state).Only state.Allows := by
  apply step_only
  cases state with
  | idle => exact menu_only
  | showStatus => exact showStatus_only panel
  | setLimits => exact setLimits_only panel
  | syncLimits => exact syncLimits_only
  | exit => exact .pure _
  | confirm queue =>
    cases queue with
    | nil => exact .bind (.lift (.say _)) fun _ => .pure _
    | cons pending rest => exact confirm_only pending rest

/-- A state with nothing to confirm comes to no decision and no write. -/
theorem step_quiet {panel : Panel} {state : SessionState} {events : List Event}
    {result : Option SessionState} (elsewhere : ∀ pending rest, state ≠ .confirm (pending :: rest))
    (trace : (step panel state).Trace events result) :
    ∀ event ∈ events, event.Within Action.Quiet := by
  intro event member
  refine ((step_allows panel state).within trace event member).imp fun action allowed => ?_
  exact allowed.quiet elsewhere

/-- A step decides a write, or it is quiet. -/
theorem step_decides {panel : Panel} {state : SessionState} {events : List Event}
    {result : Option SessionState} (trace : (step panel state).Trace events result) :
    (∃ pending rest, state = .confirm (pending :: rest) ∧ Decided pending events) ∨
      ∀ event ∈ events, event.Within Action.Quiet := by
  by_cases confirms : ∃ pending rest, state = .confirm (pending :: rest)
  · obtain ⟨pending, rest, rfl⟩ := confirms
    exact .inl ⟨pending, rest, rfl, step_confirm trace⟩
  · exact .inr (step_quiet (fun pending rest same => confirms ⟨pending, rest, same⟩) trace)

end Session
end PackagePower
