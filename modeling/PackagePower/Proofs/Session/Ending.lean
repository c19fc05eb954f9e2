import PackagePower.Program.Station
import PackagePower.Proofs.Program.Cut
import PackagePower.Proofs.Session.Course

/-!
# How long a session lasts

A session has no counter. What runs down is twice the lines that the operator has still to give
and, for the state it is in, the steps to the menu and past it: a line pays for two steps. So a
session is over after one step and two more for each line.
-/

namespace PackagePower

variable {ω σ : Type}

/-- An answer with a line. -/
def Event.isLine : Event → Bool
  | .performed (.ask _) (some _) => true
  | _ => false

def linesGiven (events : List Event) : Nat := events.countP Event.isLine

@[simp] theorem linesGiven_append (before after : List Event) :
    linesGiven (before ++ after) = linesGiven before + linesGiven after :=
  List.countP_append

@[simp] theorem linesGiven_ask (label : String) (line : Option String) (rest : List Event) :
    linesGiven (.performed (.ask label) line :: rest) = linesGiven rest + line.toList.length := by
  cases line with
  | none => exact List.countP_cons_of_neg Bool.false_ne_true
  | some line => exact List.countP_cons_of_pos rfl

/-- The steps from a state to the one behind the menu, if no line is given. -/
def SessionState.ahead : SessionState → Nat
  | .exit => 0
  | .idle => 1
  | .showStatus => 2
  | .setLimits => 2
  | .syncLimits => 2
  | .confirm queue => queue.length + 2

namespace Session
open Attempt

/-! ## What a line pays for -/

/-- The menu is left for good, or a line was given. -/
theorem menu_line {events : List Event} {result : Except Fault SessionState}
    (trace : menu.Ends events (some result)) : result = .ok .exit ∨ 0 < linesGiven events := by
  unfold Ends menu at trace
  rw [run_lift_bind] at trace
  obtain ⟨_, shown, later, rfl, _, trace₁⟩ := Program.trace_bind_some.1 trace
  rw [run_lift_bind] at trace₁
  obtain ⟨answer, _, rest, rfl, asked, trace₂⟩ := Program.trace_bind_some.1 trace₁
  obtain ⟨line, rfl, same⟩ := trace_ask.1 asked
  cases line with
  | none =>
    cases same
    change (ExceptT.run ((liftM (Program.say "Exiting.") : Attempt Unit) >>= _)).Trace _ _ at trace₂
    rw [run_lift_bind] at trace₂
    obtain ⟨_, _, _, _, _, last⟩ := Program.trace_bind_some.1 trace₂
    exact .inl (Option.some.inj (Program.trace_done.1 last).2)
  | some line =>
    right
    simp only [linesGiven_append, List.singleton_append, linesGiven_ask,
      Option.toList_some, List.length_singleton]
    omega

theorem copies_length (target : WriteTarget) : (copies target).length ≤ 2 := by
  cases target <;> decide

/-- New limits are canceled, or they follow two lines with at most three writes. -/
theorem setLimits_lines {panel : Panel} {events : List Event} {next : SessionState}
    (trace : (setLimits panel).Succeeds events next) :
    next = .idle ∨ ∃ queue, next = .confirm queue ∧ queue.length ≤ 3 ∧ 2 ≤ linesGiven events := by
  have confirms : next = .idle ∨ ∃ queue, next = .confirm queue := by
    obtain ⟨watts₁, _, trace₁⟩ := exists_last trace
    cases watts₁ with
    | none => exact .inl (canceled_succeeds trace₁)
    | some watts₁ =>
      obtain ⟨watts₂, _, trace₂⟩ := exists_last trace₁
      cases watts₂ with
      | none => exact .inl (canceled_succeeds trace₂)
      | some watts₂ =>
        obtain ⟨_, _, trace₃⟩ := exists_last trace₂
        obtain ⟨answer, _, trace₄⟩ := exists_last trace₃
        cases answer with
        | none => exact .inl (canceled_succeeds trace₄)
        | some answer =>
          cases picked : (Menu.pick? answer : Option WriteTarget) with
          | none => simp [picked] at trace₄
          | some target =>
            simp only [picked] at trace₄
            obtain ⟨_, _, _, _, _, _, _, _, _, queued, _⟩ := propose_succeeds trace₄
            exact .inr ⟨_, queued⟩
  refine confirms.imp id fun found => ?_
  obtain ⟨queue, rfl⟩ := found
  obtain ⟨_, _, _, _, target, _, _, _, _, proposed, rfl⟩ := setLimits_confirm trace
  obtain ⟨_, _, _, readings, _, _, copied, _, _, queued, _⟩ := propose_succeeds proposed
  cases queued
  have count := congrArg List.length copied
  rw [List.length_map] at count
  have few := copies_length target
  refine ⟨_, rfl, ?_, ?_⟩
  · rw [List.length_append, List.length_map, List.length_singleton]
    omega
  · simp only [linesGiven_ask, Option.toList_some, List.length_singleton]
    omega

/-- Making the copies equal is canceled, or it follows a line with one write. -/
theorem syncLimits_lines {events : List Event} {next : SessionState}
    (trace : syncLimits.Succeeds events next) :
    next = .idle ∨ ∃ pending, next = .confirm [pending] ∧ 1 ≤ linesGiven events := by
  obtain ⟨_, _, _, rfl, _, trace₁⟩ := succeeds_bind.1 trace
  obtain ⟨answer, _, _, rfl, asked, trace₂⟩ := succeeds_bind.1 trace₁
  cases answer with
  | none => exact .inl (canceled_succeeds trace₂)
  | some answer =>
    obtain ⟨line, rfl, _⟩ := succeeds_ask asked
    cases picked : (Menu.pick? answer : Option SyncDirection) with
    | none => simp [picked] at trace₂
    | some direction =>
      simp only [picked, succeeds_read_bind, preview_succeeds] at trace₂
      obtain ⟨_, _, rfl, _, _, rfl, rfl, rfl⟩ := trace₂
      refine .inr ⟨_, rfl, ?_⟩
      simp only [linesGiven_append, List.singleton_append, linesGiven_ask,
      Option.toList_some, List.length_singleton]
      omega

/-- A step runs down: it gets closer to the end, but for two steps with each line. -/
theorem step_ahead {panel : Panel} {state next : SessionState} {events : List Event}
    (trace : (step panel state).Trace events (some next)) (going : state ≠ .exit) :
    next.ahead < state.ahead + 2 * linesGiven events := by
  have idle : SessionState.idle.ahead = 1 := rfl
  cases state with
  | idle =>
    obtain ⟨result, before, after, rfl, first, rest⟩ := Program.trace_bind_some.1 trace
    rcases menu_line first with rfl | given
    · obtain ⟨rfl, same⟩ := Program.trace_done.1 rest
      cases same
      exact Nat.lt_of_lt_of_le Nat.zero_lt_one (Nat.le_add_right 1 _)
    · have low : next.ahead ≤ 2 := by
        cases next with
        | exit | idle | showStatus | setLimits | syncLimits => decide
        | confirm queue =>
          rcases step_queue trace with ⟨other, _⟩ | ⟨other, _⟩ | ⟨_, other⟩ <;> cases other
      rw [linesGiven_append]
      omega
  | showStatus =>
    have back : next = .idle := (step_some trace).elim showStatus_succeeds id
    subst back
    exact Nat.lt_of_lt_of_le (Nat.lt_succ_self 1) (Nat.le_add_right 2 _)
  | setLimits =>
    have busy : SessionState.setLimits.ahead = 2 := rfl
    rcases (step_some trace).elim setLimits_lines .inl with rfl | ⟨queue, rfl, few, given⟩
    · omega
    · have queued : (SessionState.confirm queue).ahead = queue.length + 2 := rfl
      omega
  | syncLimits =>
    have busy : SessionState.syncLimits.ahead = 2 := rfl
    rcases (step_some trace).elim syncLimits_lines .inl with rfl | ⟨pending, rfl, given⟩
    · omega
    · have queued : (SessionState.confirm [pending]).ahead = 3 := rfl
      omega
  | confirm queue =>
    have queued (queue : List PendingWrite) :
        (SessionState.confirm queue).ahead = queue.length + 2 := rfl
    rw [queued]
    rcases step_some trace with reached | rfl
    · cases queue with
      | nil =>
        obtain ⟨_, _, last⟩ := exists_last reached
        obtain ⟨_, rfl⟩ := succeeds_pure.1 last
        omega
      | cons pending rest =>
        obtain ⟨rfl, _⟩ := confirm_succeeds reached
        rw [queued, List.length_cons]
        omega
    · omega
  | exit => exact (going rfl).elim

/-! ## Operators that run out of lines -/

end Session

/-- The operator gives no more lines than `left` says, and each takes one away. -/
structure Operator.RunsOut (operator : Operator ω) (left : ω → Nat) : Prop where
  line : ∀ label world, left (operator.line label world).2 +
    (operator.line label world).1.toList.length ≤ left world
  decide : ∀ pending world, left (operator.decide pending world).2 ≤ left world

theorem Operator.RunsOut.replays {operator : Operator ω} {left : ω → Nat}
    (runsOut : operator.RunsOut left) {station : Station σ} {world last : ω × σ}
    {events : List Event} (replays : (operator.at station).Replays world events last) :
    left last.1 + linesGiven events ≤ left world.1 := by
  induction events generalizing world with
  | nil =>
    cases replays
    exact Nat.le_refl _
  | cons event rest ih =>
    cases event with
    | printed => exact ih replays
    | performed action reply =>
      obtain ⟨next, answered, later⟩ := replays
      have after := ih later
      cases action with
      | ask label =>
        cases answered
        have taken := runsOut.line label world.1
        have later : left last.1 + linesGiven rest ≤ left (operator.line label world.1).2 := after
        rw [linesGiven_ask]
        change left last.1 + (linesGiven rest + (operator.line label world.1).1.toList.length) ≤ _
        omega
      | decide pending =>
        cases answered
        exact Nat.le_trans after (runsOut.decide pending world.1)
      | read | write | readZone | writeZone | warn =>
        cases answered
        exact after

namespace Session

variable {panel : Panel} {operator : Operator ω} {station : Station σ} {left : ω → Nat}

/-- A session that goes on has steps left of those that the lines pay for. -/
theorem course_runs_out (runsOut : operator.RunsOut left) {start : Run (ω × σ)} {count : Nat}
    {state : SessionState} {run : Run (ω × σ)}
    (reached : course panel (operator.at station) start count = (some state, run)) :
    state = .exit ∨
      count + state.ahead + 2 * left run.world.1 ≤ enoughSteps (left start.world.1) := by
  -- By the steps so far: each takes one from what is ahead, and a line puts two back.
  apply course_induction panel _ start (fun count state run => state = .exit ∨
    count + state.ahead + 2 * left run.world.1 ≤ enoughSteps (left start.world.1)) _ _ reached
  · right
    have idle : SessionState.idle.ahead = 1 := rfl
    unfold enoughSteps
    omega
  · intro count earlier first bounded events later after trace _ replays
    by_cases going : earlier = .exit
    · subst going
      exact .inl (Option.some.inj (Program.trace_done.1 trace).2)
    · have ahead := step_ahead trace going
      have given : left after.world.1 + linesGiven events ≤ left first.world.1 :=
        runsOut.replays replays
      have bound := bounded.resolve_left going
      right
      omega

/-! ## Whole sessions -/

theorem course_over {handler : Handler σ} {start : Run σ} {count : Nat}
    (ended : (course panel handler start count).1 = none ∨
      (course panel handler start count).1 = some .exit) (more : Nat) :
    course panel handler start (count + more) = course panel handler start count := by
  induction more with
  | zero => rfl
  | succ more ih =>
    rw [← Nat.add_assoc]
    rcases reached : course panel handler start count with ⟨state, run⟩
    rw [reached] at ended ih
    rcases ended with rfl | rfl
    · exact course_ended panel handler start ih
    · exact course_succ panel handler start ih

theorem course_ends (runsOut : operator.RunsOut left) (start : Run (ω × σ)) {count : Nat}
    (enough : enoughSteps (left start.world.1) ≤ count) :
    (course panel (operator.at station) start count).1 = none ∨
      (course panel (operator.at station) start count).1 = some .exit := by
  rcases reached : course panel (operator.at station) start count with ⟨_ | state, run⟩
  · exact .inl rfl
  · rcases course_runs_out runsOut reached with rfl | bound
    · exact .inr rfl
    · cases state with
      | exit => exact .inr rfl
      | idle | showStatus | setLimits | syncLimits | confirm =>
        simp only [SessionState.ahead] at bound
        omega

end Session

/-- An operator who gives some lines in turn and then none, and decides out of a state of its
own. -/
def Operator.reading {δ : Type} (decide : PendingWrite → δ → Bool × δ) :
    Operator (List (Option String) × δ) where
  line _ world := (world.1.head?.join, world.1.tail, world.2)
  decide pending world :=
    let (yes, own) := decide pending world.2
    (yes, world.1, own)

theorem Operator.reading_runsOut {δ : Type} (decide : PendingWrite → δ → Bool × δ) :
    (Operator.reading decide).RunsOut fun world => world.1.length where
  line label world := by
    obtain ⟨lines, own⟩ := world
    rcases lines with _ | ⟨_ | line, rest⟩ <;> simp [Operator.reading]
  decide _ _ := Nat.le_refl _

/-- Whatever the operator decides and the devices do, a session is over after one step and two
more for each entry that the operator gives; and with channels that take everything it is left. -/
theorem Session.sessions_end {δ : Type} (panel : Panel) (station : Station σ)
    (decide : PendingWrite → δ → Bool × δ) (lines : List (Option String)) (own : δ) (devices : σ)
    (out err : Sink) :
    let session (out err : Sink) := Session.course panel ((Operator.reading decide).at station)
      { world := ((lines, own), devices), out, err }
    ((session out err (2 * lines.length + 1)).1 = none ∨
      (session out err (2 * lines.length + 1)).1 = some .exit) ∧
    (∀ more, session out err (2 * lines.length + 1 + more) =
      session out err (2 * lines.length + 1)) ∧
    (session { out with room := none } { err with room := none } (2 * lines.length + 1)).1 =
      some .exit := by
  intro session
  have ended (out err : Sink) : (session out err (2 * lines.length + 1)).1 = none ∨
      (session out err (2 * lines.length + 1)).1 = some .exit :=
    Session.course_ends (Operator.reading_runsOut decide) _ (Nat.le_refl _)
  refine ⟨ended out err, Session.course_over (ended out err), ?_⟩
  let start : Run ((List (Option String) × δ) × σ) :=
    ⟨((lines, own), devices), { out with room := none }, { err with room := none }, []⟩
  have unlimited : start.Unlimited := by
    intro channel
    cases channel <;> rfl
  obtain ⟨state, after, finished, _⟩ := (Session.steps panel (2 * lines.length + 1)
    .idle).run_unlimited ((Operator.reading decide).at station) unlimited
  refine (ended _ _).resolve_left ?_
  change ((Session.steps panel _ .idle).run _ _).1 ≠ none
  rw [finished]
  exact Option.some_ne_none state

/-! ## The bound is reached -/

namespace Session
open Attempt

variable {δ : Type} {run : Run ((List (Option String) × δ) × σ)}

theorem step_menu (panel : Panel) : ∃ lines : List String, (step panel .idle).Trace
    (lines.map (Event.line .out) ++ [.performed (.ask "Select: ") (some "1")])
      (some .showStatus) := by
  have picked : (Menu.pick? "1" : Option SessionChoice) = some .showStatus := by decide
  have asked : (liftM (ask "Select: ") : Attempt (Option String)).Succeeds
      [.performed (.ask "Select: ") (some "1")] (some "1") :=
    succeeds_lift.2 (trace_ask.2 ⟨some "1", rfl, by decide⟩)
  have reached : ∃ lines : List String, menu.Succeeds
      (lines.map (Event.line .out) ++ [.performed (.ask "Select: ") (some "1")]) .showStatus := by
    refine ⟨_, succeeds_sayAll_bind.2 ⟨_, rfl, succeeds_bind.2 ⟨_, _, [], rfl, asked, ?_⟩⟩⟩
    simp only [picked]
    exact succeeds_pure.2 ⟨rfl, rfl⟩
  obtain ⟨lines, reached⟩ := reached
  exact ⟨lines, Program.trace_bind_some.2
    ⟨_, _, [], (List.append_nil _).symm, reached, .done SessionState.showStatus⟩⟩

theorem run_step_menu (panel : Panel) (station : Station σ)
    (decide : PendingWrite → δ → Bool × δ) (unlimited : run.Unlimited) {rest : List (Option String)}
    (lines : run.world.1.1 = some "1" :: rest) :
    ∃ after, (step panel .idle).run ((Operator.reading decide).at station) run =
      (some .showStatus, after) ∧ after.Unlimited ∧ after.world.1.1 = rest := by
  obtain ⟨shown, trace⟩ := step_menu panel
  obtain ⟨⟨⟨_, own⟩, devices⟩, out, err, past⟩ := run
  subst lines
  have replays : ((Operator.reading decide).at station).Replays ((some "1" :: rest, own), devices)
      (shown.map (Event.line .out) ++ [.performed (.ask "Select: ") (some "1")])
      ((rest, own), devices) := Handler.replays_lines.2 ⟨_, rfl, rfl⟩
  obtain ⟨after, stepped, _, world⟩ := Program.run_of_trace unlimited trace replays
  obtain ⟨_, _, again, room⟩ := (step panel .idle).run_unlimited
    ((Operator.reading decide).at station) unlimited
  cases stepped.symm.trans again
  exact ⟨after, stepped, room, congrArg (·.1.1) world⟩

/-- A step that shows the limits leads back to the menu and takes no line. -/
theorem run_step_show (panel : Panel) (station : Station σ)
    (decide : PendingWrite → δ → Bool × δ) (unlimited : run.Unlimited) :
    ∃ after, (step panel .showStatus).run ((Operator.reading decide).at station) run =
      (some .idle, after) ∧ after.Unlimited ∧ after.world.1.1 = run.world.1.1 := by
  obtain ⟨next, after, stepped, room⟩ := (step panel .showStatus).run_unlimited
    ((Operator.reading decide).at station) unlimited
  obtain ⟨events, trace, _, replays⟩ :=
    Program.run_trace ((Operator.reading decide).at station) (step panel .showStatus) run
  have only := (step_only (showStatus_only panel)).within trace
  rw [stepped] at trace replays
  have back : next = .idle := (step_some trace).elim showStatus_succeeds id
  subst back
  refine ⟨after, stepped, room, ?_⟩
  refine Handler.replays_relates
    (fun before later : (List (Option String) × δ) × σ => later.1.1 = before.1.1) (fun _ => rfl)
    (fun first second => Eq.trans second first) (fun action allowed world => ?_) only replays
  cases action with
  | read | readZone => rfl
  | ask | decide | write | writeZone | warn => exact allowed.elim

/-- Fewer steps do not do: lines that each ask for the limits keep a session going for two steps
each, whatever the devices reply. -/
theorem course_of_shows (panel : Panel) (station : Station σ)
    (decide : PendingWrite → δ → Bool × δ) (own : δ) (devices : σ) (count : Nat) :
    (course panel ((Operator.reading decide).at station)
      { world := ((List.replicate count (some "1"), own), devices) } (2 * count)).1 =
      some .idle := by
  let handler := (Operator.reading decide).at station
  let start : Run ((List (Option String) × δ) × σ) :=
    { world := ((List.replicate count (some "1"), own), devices) }
  have onTheWay : ∀ shown left, shown + left = count → ∃ run,
      course panel handler start (2 * shown) = (some .idle, run) ∧ run.Unlimited ∧
        run.world.1.1 = List.replicate left (some "1") := by
    intro shown
    induction shown with
    | zero =>
      intro left total
      rw [Nat.zero_add] at total
      subst total
      exact ⟨start, rfl, fun channel => by cases channel <;> rfl, rfl⟩
    | succ shown ih =>
      intro left total
      obtain ⟨run, reached, unlimited, lines⟩ := ih (left + 1) (by omega)
      obtain ⟨middle, picked, unlimited₁, lines₁⟩ :=
        run_step_menu panel station decide unlimited lines
      obtain ⟨after, shownNow, unlimited₂, lines₂⟩ :=
        run_step_show panel station decide unlimited₁
      refine ⟨after, ?_, unlimited₂, lines₂.trans lines₁⟩
      have halfway := (course_succ panel handler start reached).trans picked
      exact (course_succ panel handler start halfway).trans shownNow
  obtain ⟨run, reached, _⟩ := onTheWay count 0 rfl
  exact congrArg Prod.fst reached

end Session
end PackagePower
