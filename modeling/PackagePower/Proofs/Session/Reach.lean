import PackagePower.Proofs.Device.Reach
import PackagePower.Proofs.Program.Mortal
import PackagePower.Proofs.Session.Course

/-!
# What a session reaches

A session writes to the register file only what it queued after reading that register. As the
register could be read the file gets past it, and no later write makes the file shorter, so none
makes it longer either. Everything that a session changes is thus within reach of its devices.
-/

namespace PackagePower.Session

open Host (Within)

variable {ω : Type} {operator : Operator ω} {devices : Devices} {reach : Reach}

/-- Where a write to the register file is queued the file gets past the register. -/
def Fit (devices : Devices) (host : Host) (state : SessionState) : Prop :=
  ∀ queue current next, state = .confirm queue → .register .msr current next ∈ queue →
    devices.file.Holds host PowerLimit.register

theorem read_of_limited {first second : LimitUnits} {readings : List (RegisterCopy × Word)}
    {copy : RegisterCopy} {current next : Word}
    (member : .register copy current next ∈ readings.map (limited first second)) :
    (copy, current) ∈ readings := by
  obtain ⟨reading, found, same⟩ := List.mem_map.1 member
  cases same
  exact found

/-- A new queue writes to a register only what came of reading it. -/
theorem read_of_queued {panel : Panel} {state : SessionState} {events : List Event}
    {queue : List PendingWrite} {copy : RegisterCopy} {current next : Word}
    (trace : (step panel state).Trace events (some (.confirm queue)))
    (queued : .register copy current next ∈ queue) :
    ((∀ event ∈ events, event.Within Action.Quiet) ∧ readingOf (copy, current) ∈ events) ∨
      ∃ pending, state = .confirm (pending :: queue) := by
  -- A queue is new after an entry or a copy; after a decision it is the rest of the last.
  rcases step_queue trace with ⟨rfl, entered⟩ | ⟨rfl, synced⟩ | decided
  · refine .inl ⟨step_quiet (by simp) trace, ?_⟩
    obtain ⟨_, _, _, _, _, _, after, _, _, proposed, rfl⟩ := setLimits_confirm entered
    obtain ⟨first, second, zone, readings, _, _, _, _, _, same, rfl⟩ := propose_succeeds proposed
    cases same
    rcases List.mem_append.1 queued with register | zone
    · have read := List.mem_map_of_mem (f := readingOf) (read_of_limited register)
      simp [read]
    · cases List.mem_singleton.1 zone
  · refine .inl ⟨step_quiet (by simp) trace, ?_⟩
    obtain ⟨direction, before, value, found, rfl, rfl⟩ := syncLimits_confirm synced
    cases List.mem_singleton.1 queued
    simp
  · exact .inr decided

theorem fit_idle {host : Host} : Fit devices host .idle := by
  intro queue current next same
  cases same

theorem Fit.within {state : SessionState} {host after : Host} (fit : Fit devices host state)
    (reaches : devices.Reaches reach) (within : Within reach host after) :
    Fit devices after state :=
  fun queue current next same queued => reaches.holds within (fit queue current next same queued)

variable {lacks : Bool}

/-- An action of a step stays within reach of the devices, where the queue is fit. -/
theorem answer_within {state : SessionState} {action : Action} (reaches : devices.Reaches reach)
    (allowed : state.Allows action) (world : ω × Host) (fit : Fit devices world.2 state) :
    Within reach world.2
      ((operator.at (devices.station.ending lacks)).answer action world).2.2 := by
  rw [Station.world_ending]
  by_cases confirms : ∃ pending rest, state = .confirm (pending :: rest)
  · obtain ⟨pending, rest, rfl⟩ := confirms
    rcases allowed with rfl | rfl | logs
    · exact .refl reach _
    · cases pending with
      | register copy current next =>
        apply reaches.write_within
        rintro rfl
        exact fit _ current next rfl List.mem_cons_self
      | zone limits => exact (devices.zone.write_wrote world.2 limits).within reaches.zone
    · rw [devices.station_steady.answer_quiet logs.quiet world]
      exact .refl reach _
  · have quiet := allowed.quiet fun pending rest same => confirms ⟨pending, rest, same⟩
    rw [devices.station_steady.answer_quiet quiet world]
    exact .refl reach _

/-- So does a whole step, also one that the end of the process cuts short. -/
theorem replays_within {state : SessionState} {events : List Event} {world last : ω × Host}
    (reaches : devices.Reaches reach) (fit : Fit devices world.2 state)
    (allowed : ∀ event ∈ events, event.Within state.Allows)
    (replays : (operator.at (devices.station.ending lacks)).Replays world events last) :
    Within reach world.2 last.2 :=
  Handler.replays_relates
    (fun before after : ω × Host => Fit devices before.2 state → Within reach before.2 after.2)
    (fun _ _ => .refl reach _)
    (fun first second fit => (first fit).trans (second (fit.within reaches (first fit))))
    (fun _ permitted world fit => answer_within reaches permitted world fit) allowed replays fit

theorem fit_of_step {panel : Panel} {state next : SessionState} {events : List Event}
    {world last : ω × Host} (reaches : devices.Reaches reach) (fit : Fit devices world.2 state)
    (trace : (step panel state).Trace events (some next))
    (replays : (operator.at (devices.station.ending lacks)).Replays world events last) :
    Fit devices last.2 next := by
  have within := replays_within reaches fit ((step_allows panel state).within trace) replays
  have steady : (devices.station.ending lacks).Steady := devices.station_steady
  -- What was read in this step shows how far the file gets; earlier queues were fit already.
  rintro queue current value rfl queued
  rcases read_of_queued trace queued with ⟨quiet, read⟩ | ⟨pending, rfl⟩
  · have found := (steady.replays_quiet quiet replays).2 (.msr, current) read
    simp only [Station.ending, reduceCtorEq, and_false, if_false] at found
    exact reaches.holds within (RegisterFile.holds_of_read found)
  · exact reaches.holds within (fit _ current value rfl (List.mem_cons_of_mem _ queued))

/-- A session that its process may not outlive stays within reach of its devices. -/
theorem steps_within (reaches : devices.Reaches reach) (panel : Panel) (count : Nat)
    {state : SessionState} {run : Run (ω × Host)} (fit : Fit devices run.world.2 state) :
    Within reach run.world.2 ((steps panel count state).mortal.run
      (operator.at (devices.station.ending lacks)) run).2.world.2 := by
  induction count generalizing state run with
  | zero => exact .refl reach _
  | succ count ih =>
    by_cases exits : state = .exit
    · subst exits
      exact .refl reach _
    · have next : steps panel (count + 1) state = step panel state >>= steps panel count := by
        cases state with
        | exit => exact (exits rfl).elim
        | idle | showStatus | setLimits | syncLimits | confirm => rfl
      rw [next, Program.mortal_bind, Attempt.run_bind]
      obtain ⟨events, result, ended, reached, _, replays⟩ :=
        Attempt.run_ends (operator.at (devices.station.ending lacks)) (step panel state).mortal run
      have allowed := Program.Only.within (step_allows panel state).mortal ended
      have within := replays_within reaches fit allowed replays
      rcases ran : (step panel state).mortal.run
        (operator.at (devices.station.ending lacks)) run with ⟨fault | later, middle⟩ <;>
        rw [ran] at reached replays within
      · exact within
      · obtain ⟨_ | later, trace, same, _⟩ | ⟨same, _⟩ := Program.mortal_trace ended <;>
          subst same
        · cases reached
        · cases reached
          exact within.trans (ih (fit_of_step reaches fit trace replays))
        · cases reached

end PackagePower.Session
