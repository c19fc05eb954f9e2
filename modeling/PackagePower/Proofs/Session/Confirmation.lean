import PackagePower.Proofs.Session.Course

/-!
# Writes are confirmed

In every session, whoever answers and however much the channels take, a write is attempted
only right after the operator said yes to that very write, and every yes is followed by one
attempt. The line that shows the write had been printed since the last menu.

The invariant ties a queue to the text behind it: what is still to be confirmed has been shown
after the last menu.
-/

namespace PackagePower

/-- The action of an attempt at a device. -/
def Event.attempt? : Event → Option Action
  | .performed (.write copy value) _ => some (.write copy value)
  | .performed (.writeZone limits) _ => some (.writeZone limits)
  | _ => none

/-- The write that the operator said yes to. -/
def Event.approved? : Event → Option PendingWrite
  | .performed (.decide pending) reply => if reply then some pending else none
  | _ => none

namespace Session

/-- The lines of the menu. -/
def menuLines : List String :=
  "Menu:" :: (Menu.all : List SessionChoice).map fun item => "  " ++ Menu.entry item

/-- The events of a menu as a whole. -/
def menuShown : List Event := menuLines.map (Event.line .out)

/-- The line that shows `pending` was printed, after the last menu. -/
def Announced (history : List Event) (pending : PendingWrite) : Prop :=
  ∃ earlier since, history = earlier ++ pending.shown :: since ∧ menuShown <:+: earlier ∧
    ∀ event ∈ since, event ∉ menuShown

/-- Every yes is followed by one attempt, and there is no other. -/
def Balanced (events : List Event) : Prop :=
  events.filterMap Event.attempt? = (events.filterMap Event.approved?).map PendingWrite.action

/-! ## Attempts and decisions -/

theorem quiet_event {event : Event} (within : event.Within Action.Quiet) :
    event.attempt? = none ∧ event.approved? = none := by
  cases event with
  | printed => exact ⟨rfl, rfl⟩
  | performed action reply =>
    cases action with
    | ask | read | readZone | warn => exact ⟨rfl, rfl⟩
    | decide | write | writeZone => exact within.elim

theorem Balanced.of_quiet {events : List Event}
    (quiet : ∀ event ∈ events, event.Within Action.Quiet) : Balanced events := by
  unfold Balanced
  rw [List.filterMap_eq_nil_iff.2 fun event member => (quiet_event (quiet event member)).1,
    List.filterMap_eq_nil_iff.2 fun event member => (quiet_event (quiet event member)).2]
  rfl

theorem Balanced.append {first second : List Event} (before : Balanced first)
    (after : Balanced second) : Balanced (first ++ second) := by
  unfold Balanced at *
  rw [List.filterMap_append, List.filterMap_append, List.map_append, before, after]

theorem Decided.balanced {pending : PendingWrite} {events : List Event}
    (decided : Decided pending events) : Balanced events := by
  cases decided with
  | refused logs =>
    have asked : Balanced [.performed (.decide pending) false] := rfl
    exact asked.append (.of_quiet (quiet_of_logs logs))
  | approved reply logs =>
    have written : Balanced [.performed (.decide pending) true, pending.attempted reply] := by
      cases pending <;> rfl
    exact written.append (.of_quiet (quiet_of_logs logs))

theorem step_balanced {panel : Panel} {state : SessionState} {events : List Event}
    {result : Option SessionState} (trace : (step panel state).Trace events result) :
    Balanced events := by
  rcases step_decides trace with ⟨_, _, _, decided⟩ | quiet
  · exact decided.balanced
  · exact .of_quiet quiet

/-- An attempt stands where a step that confirms puts it: behind the yes. -/
theorem step_attempt {panel : Panel} {state : SessionState} {early rest : List Event}
    {event : Event} {result : Option SessionState}
    (trace : (step panel state).Trace (early ++ event :: rest) result)
    (attempt : event.attempt? ≠ none) :
    ∃ pending queue reply, state = .confirm (pending :: queue) ∧ event = pending.attempted reply ∧
      early = [.performed (.decide pending) true] ∧ ∀ event ∈ rest, event.attempt? = none := by
  rcases step_decides trace with ⟨pending, queue, rfl, decided⟩ | quiet
  · -- Where the attempt stands is found by how many events come before it.
    generalize same : early ++ event :: rest = events at decided
    cases decided with
    | refused logs =>
      cases early with
      | nil =>
        cases same
        exact (attempt rfl).elim
      | cons head tail =>
        cases same
        exact (attempt (quiet_event (quiet_of_logs logs event (by simp))).1).elim
    | approved reply logs =>
      match early, same with
      | [], same =>
        cases same
        exact (attempt rfl).elim
      | [_], same =>
        cases same
        exact ⟨pending, queue, reply, rfl, rfl, rfl,
          fun event member => (quiet_event (quiet_of_logs logs event member)).1⟩
      | _ :: _ :: _, same =>
        cases same
        exact (attempt (quiet_event (quiet_of_logs logs event (by simp))).1).elim
  · exact (attempt (quiet_event (quiet event (by simp))).1).elim

/-! ## What was shown -/

/-- The first two characters of a text, which tell the lines of a menu from others. -/
def opening (text : String) : List Char := text.toList.take 2

theorem opening_append {head : String} {first second : Char} (tail : String)
    (opened : opening head = [first, second]) : opening (head ++ tail) = [first, second] := by
  have long : 2 ≤ head.toList.length := by
    have := congrArg List.length opened
    simp only [opening, List.length_take, List.length_cons, List.length_nil] at this
    omega
  unfold opening
  rw [String.toList_append, List.take_append_of_le_length long]
  exact opened

theorem opening_of_menu {text : String} (listed : text ∈ menuLines) :
    opening text = ['M', 'e'] ∨ opening text = [' ', ' '] := by
  rcases List.mem_cons.1 listed with rfl | entry
  · exact .inl rfl
  · obtain ⟨item, _, rfl⟩ := List.mem_map.1 entry
    exact .inr (opening_append _ rfl)

theorem not_menu {text : String} {start : List Char} (opened : opening text = start)
    (other : start ≠ ['M', 'e'] ∧ start ≠ [' ', ' ']) : Event.line .out text ∉ menuShown := by
  intro shown
  obtain ⟨listed, member, same⟩ := List.mem_map.1 shown
  cases Event.line_inj.1 same
  rcases opening_of_menu member with menu | menu
  · exact other.1 (opened.symm.trans menu)
  · exact other.2 (opened.symm.trans menu)

theorem shown_not_menu (pending : PendingWrite) : pending.shown ∉ menuShown := by
  rcases pending with ⟨_ | _, current, next⟩ | limits
  · have opened : opening (PendingWrite.register .msr current next).describe = ['M', 'S'] :=
      opening_append _ rfl
    exact not_menu opened (by decide)
  · have opened : opening (PendingWrite.register .mmio current next).describe = ['M', 'M'] :=
      opening_append _ rfl
    exact not_menu opened (by decide)
  · have opened : opening (PendingWrite.zone limits).describe = ['P', 'o'] :=
      opening_append _ (opening_append _ (opening_append _ rfl))
    exact not_menu opened (by decide)

theorem receipt_not_menu (pending : PendingWrite) :
    Event.line .out pending.receipt ∉ menuShown := by
  have opened : opening pending.receipt = ['W', 'r'] := by
    cases pending with
    | register copy current next => exact opening_append _ (opening_append _ (opening_append _ rfl))
    | zone limits => exact opening_append _ (opening_append _ (opening_append _ rfl))
  exact not_menu opened (by decide)

theorem skipped_not_menu (pending : PendingWrite) :
    Event.line .out s!"Skipped: {pending.question}" ∉ menuShown := by
  have opened : opening s!"Skipped: {pending.question}" = ['S', 'k'] := opening_append _ rfl
  exact not_menu opened (by decide)

theorem Announced.append {history later : List Event} {pending : PendingWrite}
    (announced : Announced history pending) (other : ∀ event ∈ later, event ∉ menuShown) :
    Announced (history ++ later) pending := by
  obtain ⟨earlier, since, rfl, menu, quiet⟩ := announced
  exact ⟨earlier, since ++ later, by simp, menu, List.forall_mem_append.2 ⟨quiet, other⟩⟩

/-- Lines that show a queue announce all of it. -/
theorem announced_of_shown {history before : List Event} {queue : List PendingWrite}
    (menu : menuShown <:+: history) :
    ∀ pending ∈ queue, Announced (history ++ (before ++ queue.map PendingWrite.shown)) pending := by
  intro pending member
  obtain ⟨first, last, rfl⟩ := List.append_of_mem member
  refine ⟨history ++ (before ++ first.map PendingWrite.shown), last.map PendingWrite.shown, by simp,
    menu.trans (List.infix_append' [] _ _), ?_⟩
  intro event shown
  obtain ⟨other, _, rfl⟩ := List.mem_map.1 shown
  exact shown_not_menu other

/-! ## The invariant -/

/-- A menu has been shown by any other state, and what is to be confirmed after it. -/
structure Told (state : SessionState) (history : List Event) : Prop where
  menu : state ≠ .idle → menuShown <:+: history
  queue : ∀ queue, state = .confirm queue → ∀ pending ∈ queue, Announced history pending

theorem menu_shows {events : List Event} {next : SessionState}
    (trace : menu.Succeeds events next) : menuShown <+: events := by
  obtain ⟨_, rfl, _⟩ := Attempt.succeeds_sayAll_bind.1 trace
  exact List.prefix_append _ _

theorem Told.of_menu {state : SessionState} {history : List Event} (shown : menuShown <:+: history)
    (other : ∀ queue, state ≠ .confirm queue) : Told state history :=
  ⟨fun _ => shown, fun queue same => (other queue same).elim⟩

theorem Told.at_menu {history : List Event} : Told .idle history :=
  ⟨fun moved => (moved rfl).elim, fun _ same => nomatch same⟩

/-- A state with a queue to show leaves the menu above it. -/
theorem queue_told {history events : List Event} {next : SessionState}
    (menu : menuShown <:+: history)
    (shown : ∀ queue, next = .confirm queue → queue.map PendingWrite.shown <:+ events) :
    Told next (history ++ events) := by
  refine ⟨fun _ => menu.trans (List.infix_append' [] _ _), ?_⟩
  intro queue same
  obtain ⟨before, rfl⟩ := shown queue same
  exact announced_of_shown menu

theorem confirm_told {history events : List Event} {pending : PendingWrite}
    {rest : List PendingWrite} {next : SessionState}
    (told : Told (.confirm (pending :: rest)) history)
    (trace : (confirm (pending :: rest)).Succeeds events next) : Told next (history ++ events) := by
  obtain ⟨rfl, outcome⟩ := confirm_succeeds trace
  have other : ∀ event ∈ events, event ∉ menuShown := by
    have decided (yes : Bool) : Event.performed (.decide pending) yes ∉ menuShown := by
      simp [menuShown, Event.line]
    have attempted : pending.attempted (.ok ()) ∉ menuShown := by
      cases pending <;> simp [menuShown, Event.line, PendingWrite.attempted]
    rcases outcome with rfl | rfl
    · simp only [List.forall_mem_cons]
      exact ⟨decided true, attempted, receipt_not_menu pending, by simp⟩
    · simp only [List.forall_mem_cons]
      exact ⟨decided false, skipped_not_menu pending, by simp⟩
  refine ⟨fun _ => (told.menu (by simp)).trans (List.infix_append' [] _ _), ?_⟩
  rintro queue ⟨⟩ undecided member
  exact (told.queue _ rfl undecided (List.mem_cons_of_mem pending member)).append other

theorem advance_told {panel : Panel} {state next : SessionState} {history events : List Event}
    (told : Told state history) (trace : (advance panel state).Succeeds events next) :
    Told next (history ++ events) := by
  cases state with
  | idle =>
    have shown := (menu_shows trace).isInfix
    exact .of_menu (shown.trans (List.suffix_append _ _).isInfix) (menu_succeeds trace)
  | showStatus =>
    cases showStatus_succeeds trace
    exact .at_menu
  | setLimits =>
    refine queue_told (told.menu (by simp)) ?_
    rintro queue rfl
    obtain ⟨_, _, _, _, _, _, after, _, _, proposed, rfl⟩ := setLimits_confirm trace
    obtain ⟨first, second, zone, readings, _, _, _, _, _, same, rfl⟩ := propose_succeeds proposed
    cases same
    refine .trans ?_ ((List.suffix_cons _ _).trans (List.suffix_cons _ _))
    exact List.suffix_append_of_suffix (List.suffix_append_of_suffix (List.suffix_cons _ _))
  | syncLimits =>
    refine queue_told (told.menu (by simp)) ?_
    rintro queue rfl
    obtain ⟨_, before, _, _, _, rfl⟩ := syncLimits_confirm trace
    exact List.suffix_append_of_suffix ((List.suffix_cons _ _).trans (List.suffix_cons _ _))
  | confirm queue =>
    cases queue with
    | nil =>
      obtain ⟨_, _, last⟩ := Attempt.exists_last trace
      cases (Attempt.succeeds_pure.1 last).2
      exact .at_menu
    | cons pending rest => exact confirm_told told trace
  | exit =>
    obtain ⟨rfl, rfl⟩ := Attempt.succeeds_pure.1 trace
    simpa using told

theorem step_told {panel : Panel} {state next : SessionState} {history events : List Event}
    (told : Told state history) (trace : (step panel state).Trace events (some next)) :
    Told next (history ++ events) := by
  rcases step_some trace with reached | rfl
  · exact advance_told told reached
  · exact .at_menu

variable {σ : Type} (panel : Panel) (handler : Handler σ) (start : Run σ)

theorem course_told {count : Nat} {state : SessionState} {run : Run σ}
    (reached : course panel handler start count = (some state, run)) : Told state run.history := by
  apply course_induction panel handler start (fun _ state run => Told state run.history) _ _ reached
  · exact .at_menu
  · intro _ state run told events later after trace history _
    rw [history]
    exact step_told told trace

theorem course_balanced (fresh : start.events = []) (count : Nat) :
    Balanced (course panel handler start count).2.history := by
  induction count with
  | zero =>
    rw [course_zero]
    simp [Balanced, Run.history, fresh]
  | succ count ih =>
    rcases before : course panel handler start count with ⟨_ | state, middle⟩
    · rw [course_ended panel handler start before]
      rwa [before] at ih
    · obtain ⟨events, trace, history, _⟩ := course_step panel handler start before
      rw [history]
      rw [before] at ih
      exact ih.append (step_balanced trace)

/-! ## Sessions -/

/-- The attempt that follows `before` is one of step `k`: the only one of that step, right after
a yes to that very write, whose line was on the output channel by then. -/
def ConfirmedAt (before : List Event) (attempt : Event) (k : Nat) : Prop :=
  ∃ pending rest run reply tail,
    course panel handler start k = (some (.confirm (pending :: rest)), run) ∧
    before = run.history ++ [.performed (.decide pending) true] ∧
    attempt = pending.attempted reply ∧
    (course panel handler start (k + 1)).2.history = before ++ attempt :: tail ∧
    (∀ event ∈ tail, event.attempt? = none) ∧
    Announced run.history pending ∧
    run.out.kept = start.out.kept ++ run.history.flatMap (Event.bytesOn .out)

theorem attempt_confirmed (fresh : start.events = []) {count : Nat} {before later : List Event}
    {event : Event} (attempt : event.attempt? ≠ none)
    (split : (course panel handler start count).2.history = before ++ event :: later) :
    ∃ k < count, ConfirmedAt panel handler start before event k := by
  obtain ⟨k, below, state, run, early, tail, reached, rfl, trace, history⟩ :=
    step_of_event panel handler start fresh split
  obtain ⟨pending, rest, reply, rfl, same, rfl, only⟩ := step_attempt trace attempt
  have announced := (course_told panel handler start reached).queue _ rfl pending (by simp)
  refine ⟨k, below, pending, rest, run, reply, tail, reached, rfl, same, ?_, only, announced,
    Program.run_faithful (.of_fresh fresh) reached .out⟩
  rw [history, List.append_assoc]

/-- Confirm before write. -/
theorem writes_are_confirmed (world : σ) (out err : Sink) (count : Nat) :
    Balanced (course panel handler { world, out, err } count).2.history ∧
      ∀ before event later,
        (course panel handler { world, out, err } count).2.history = before ++ event :: later →
        event.attempt? ≠ none →
        ∃ k < count, ConfirmedAt panel handler { world, out, err } before event k := by
  refine ⟨course_balanced panel handler _ rfl count, ?_⟩
  intro before event later split attempt
  exact attempt_confirmed panel handler _ rfl attempt split

end Session
end PackagePower
