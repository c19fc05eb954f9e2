import PackagePower.Proofs.Program.Attempt

/-!
# Channels with less room

A program is run twice in one world: once with channels that take everything, and once with
channels that have room for so many bytes. Both runs are the same up to the first text that does
not fit, and there the second ends. So what it does and prints is a first part of what the other
does and prints, and it ends early exactly where the other prints more than there is room for.

What is logged is left out, as a text that does not fit can be logged in its place.
-/

namespace PackagePower

variable {α σ : Type} {handler : Handler σ}

theorem Channel.exists_iff {p : Channel → Prop} : (∃ channel, p channel) ↔ p .out ∨ p .err := by
  constructor
  · rintro ⟨_ | _, found⟩
    · exact .inl found
    · exact .inr found
  · intro found
    cases found with
    | inl out => exact ⟨.out, out⟩
    | inr err => exact ⟨.err, err⟩

/-- Something done besides printing and logging. -/
def Event.isDeed : Event → Bool
  | .printed _ _ => false
  | .performed (.warn _) _ => false
  | .performed _ _ => true

def Run.deeds (run : Run σ) : List Event := run.history.filter Event.isDeed

namespace Sink

/-- There is room for `count` bytes, those that the channel has included. -/
def Holds (sink : Sink) (count : Nat) : Prop :=
  ∀ room, sink.room = some room → count ≤ sink.kept.length + room

theorem holds_write {sink : Sink} {text : String} (fits : sink.fits text) (count : Nat) :
    (sink.write text).Holds count ↔ sink.Holds count := by
  unfold Holds write
  unfold Sink.fits at fits
  cases numbered : sink.room with
  | none => simp
  | some room =>
    simp only [numbered, decide_eq_true_eq] at fits
    simp only [Option.some.injEq, forall_eq', List.length_append, List.length_take]
    omega

theorem holds_kept (sink : Sink) : sink.Holds sink.kept.length := by
  intro room _
  omega

theorem not_holds_of_empty {room : Option Nat} {count : Nat} :
    ¬ ({ room } : Sink).Holds count ↔ ∃ bytes, room = some bytes ∧ bytes < count := by
  simp [Holds]

theorem kept_prefix_write (sink : Sink) (text : String) : sink.kept <+: (sink.write text).kept := by
  unfold write
  split <;> exact List.prefix_append _ _

/-- A channel never keeps more of a text than the text. -/
theorem write_prefix (sink : Sink) (text : String) :
    (sink.write text).kept <+: sink.kept ++ bytes text := by
  unfold write
  split
  · exact List.prefix_rfl
  · exact (List.prefix_append_right_inj _).2 (List.take_prefix _ _)

/-- Where a text does not fit, there is no room for what has it behind what is kept. -/
theorem not_holds_of_not_fits {sink : Sink} {text : String} {bytes : List UInt8}
    (full : ¬ sink.fits text) (longer : sink.kept ++ Sink.bytes text <+: bytes) :
    ¬ sink.Holds bytes.length := by
  intro holds
  apply full
  unfold fits
  cases numbered : sink.room with
  | none => rfl
  | some room =>
    have enough := holds room numbered
    have length := longer.length_le
    rw [List.length_append] at length
    simp only [decide_eq_true_eq]
    omega

end Sink

/-! ## A run goes on -/

namespace Run

theorem sink_warned (handler : Handler σ) (lastWords : List String) (run : Run σ)
    (channel : Channel) : (run.warned handler lastWords).sink channel = run.sink channel := by
  induction lastWords generalizing run with
  | nil => rfl
  | cons text rest ih => exact ih (run.performed handler (.warn text)).2

theorem sink_performed (run : Run σ) (handler : Handler σ) (action : Action) (channel : Channel) :
    (run.performed handler action).2.sink channel = run.sink channel := by
  cases channel <;> rfl

theorem Unlimited.performed {run : Run σ} (unlimited : run.Unlimited) (handler : Handler σ)
    (action : Action) :
    (run.performed handler action).2.Unlimited := by
  intro channel
  rw [sink_performed]
  exact unlimited channel

theorem deeds_handed (run : Run σ) (channel : Channel) (text : String) :
    (run.handed channel text).deeds = run.deeds :=
  congrArg (List.filter Event.isDeed) (run.history_handed channel text)

theorem deeds_printed (run : Run σ) (channel : Channel) (text : String) :
    ((run.handed channel text).record (.printed channel text)).deeds = run.deeds := by
  unfold deeds
  rw [history_record, history_handed, List.filter_append]
  exact List.append_nil _

theorem deeds_warned (handler : Handler σ) (lastWords : List String) (run : Run σ) :
    (run.warned handler lastWords).deeds = run.deeds := by
  unfold deeds
  rw [(run.warned_replays handler lastWords).1, List.filter_append, List.filter_map]
  have logged : (Event.isDeed ∘ Event.warned) = fun _ => false := rfl
  simp [logged]

/-- The one run is a first part of the other. -/
structure Within (run later : Run σ) : Prop where
  deeds : run.deeds <+: later.deeds
  kept : ∀ channel, (run.sink channel).kept <+: (later.sink channel).kept

theorem Within.of_eq {run later : Run σ} (deeds : run.deeds = later.deeds)
    (kept : ∀ channel, (run.sink channel).kept = (later.sink channel).kept) : run.Within later :=
  ⟨deeds ▸ List.prefix_rfl, fun channel => kept channel ▸ List.prefix_rfl⟩

theorem Within.refl (run : Run σ) : run.Within run := .of_eq rfl fun _ => rfl

theorem Within.trans {run middle later : Run σ} (first : run.Within middle)
    (second : middle.Within later) : run.Within later :=
  ⟨first.deeds.trans second.deeds, fun channel => (first.kept channel).trans (second.kept channel)⟩

theorem within_handed (run : Run σ) (channel : Channel) (text : String) :
    run.Within (run.handed channel text) := by
  constructor
  · exact (deeds_handed run channel text).symm ▸ List.prefix_rfl
  · intro other
    rw [sink_handed]
    split
    · exact Sink.kept_prefix_write _ _
    · exact List.prefix_rfl

theorem within_record (run : Run σ) (event : Event) : run.Within (run.record event) := by
  constructor
  · unfold deeds
    rw [history_record, List.filter_append]
    exact List.prefix_append _ _
  · intro channel
    cases channel <;> exact List.prefix_rfl

theorem within_performed (run : Run σ) (action : Action) :
    run.Within (run.performed handler action).2 := by
  have recorded := run.within_record (.performed action (run.performed handler action).1)
  refine ⟨recorded.deeds, fun channel => ?_⟩
  have same := congrArg Sink.kept (run.sink_performed handler action channel)
  exact same.symm ▸ List.prefix_rfl

theorem within_warned (handler : Handler σ) (lastWords : List String) (run : Run σ) :
    run.Within (run.warned handler lastWords) :=
  .of_eq (deeds_warned handler lastWords run).symm fun channel =>
    (congrArg Sink.kept (sink_warned handler lastWords run channel)).symm

end Run

theorem Program.within_run (program : Program α) (handler : Handler σ) (run : Run σ) :
    run.Within (program.run handler run).2 := by
  induction program generalizing run with
  | done value => exact .refl run
  | print channel text lastWords next ih =>
    have handed := run.within_handed channel text
    simp only [Program.run]
    split
    · exact (handed.trans (Run.within_record _ _)).trans (ih _)
    · exact handed.trans (Run.within_warned _ _ _)
  | perform action next ih => exact (run.within_performed action).trans (ih _ _)

/-- Channels that take everything end no program. -/
theorem Program.run_unlimited (program : Program α) (handler : Handler σ) {run : Run σ}
    (unlimited : run.Unlimited) :
    ∃ value after, program.run handler run = (some value, after) ∧ after.Unlimited := by
  induction program generalizing run with
  | done value => exact ⟨value, run, rfl, unlimited⟩
  | print channel text lastWords next ih =>
    simp only [Program.run]
    rw [if_pos (unlimited.fits channel text)]
    exact ih (unlimited.printed channel text)
  | perform action next ih => exact ih _ (unlimited.performed handler action)

/-! ## Two runs -/

/-- The two runs are the same but for the room of the second's channels. -/
structure Run.Beside (full cut : Run σ) : Prop where
  unlimited : full.Unlimited
  world : cut.world = full.world
  deeds : cut.deeds = full.deeds
  kept : ∀ channel, (cut.sink channel).kept = (full.sink channel).kept

namespace Run.Beside

variable {full cut : Run σ}

theorem within (beside : Beside full cut) : cut.Within full := .of_eq beside.deeds beside.kept

theorem performed (beside : Beside full cut) (handler : Handler σ) (action : Action) :
    (cut.performed handler action).1 = (full.performed handler action).1 ∧
      Beside (full.performed handler action).2 (cut.performed handler action).2 := by
  unfold Run.performed
  rw [beside.world]
  refine ⟨rfl, beside.unlimited.performed handler action, rfl, ?_, ?_⟩
  · have same := beside.deeds
    unfold Run.deeds at same ⊢
    rw [history_record, history_record, List.filter_append, List.filter_append]
    exact congrArg (· ++ _) same
  · intro channel
    cases channel
    · exact beside.kept .out
    · exact beside.kept .err

theorem printed (beside : Beside full cut) {channel : Channel} {text : String}
    (fits : (cut.sink channel).fits text) :
    Beside ((full.handed channel text).record (.printed channel text))
      ((cut.handed channel text).record (.printed channel text)) := by
  refine ⟨beside.unlimited.printed channel text, ?_, ?_, ?_⟩
  · exact (cut.world_handed channel text).trans (beside.world.trans
      (full.world_handed channel text).symm)
  · rw [deeds_printed, deeds_printed, beside.deeds]
  · intro other
    change ((cut.handed channel text).sink other).kept =
      ((full.handed channel text).sink other).kept
    rw [sink_handed, sink_handed]
    by_cases same : channel = other
    · subst same
      rw [if_pos rfl, if_pos rfl, Sink.kept_write fits,
        Sink.kept_write (beside.unlimited.fits channel text), beside.kept]
    · rw [if_neg same, if_neg same, beside.kept]

end Run.Beside

/-- What comes of both runs, where the second began with the channels of `cut`. It goes to the
same end, with room for all that the first prints; or it ends early, with less room than that. -/
inductive Run.Cut (cut : Run σ) : Option α × Run σ → Option α × Run σ → Prop where
  | whole {value : α} {after left : Run σ} : Beside after left →
      (∀ channel, (cut.sink channel).Holds (after.sink channel).kept.length) →
      Cut cut (some value, after) (some value, left)
  | short {value : α} {after left : Run σ} : left.Within after →
      (∃ channel, ¬ (cut.sink channel).Holds (after.sink channel).kept.length) →
      Cut cut (some value, after) (none, left)

namespace Run.Cut

variable {cut : Run σ} {first second : Option α × Run σ}

theorem within (ended : Run.Cut cut first second) : second.2.Within first.2 := by
  cases ended with
  | whole left _ => exact left.within
  | short within _ => exact within

theorem none_or_same (ended : Run.Cut cut first second) :
    second.1 = none ∨ second.1 = first.1 ∧ second.2.deeds = first.2.deeds := by
  cases ended with
  | whole left _ => exact .inr ⟨rfl, left.deeds⟩
  | short _ _ => exact .inl rfl

theorem eq_none_iff (ended : Run.Cut cut first second) : second.1 = none ↔
    ∃ channel, ¬ (cut.sink channel).Holds (first.2.sink channel).kept.length := by
  cases ended with
  | whole left enough =>
    constructor
    · exact nofun
    · intro full
      obtain ⟨channel, full⟩ := full
      exact (full (enough channel)).elim
  | short _ full => exact ⟨fun _ => full, fun _ => rfl⟩

end Run.Cut

/-- Only how much the channels hold in all matters. -/
theorem Run.Cut.of_room {cut later : Run σ} {first second : Option α × Run σ}
    (ended : Run.Cut later first second)
    (room : ∀ channel count, (later.sink channel).Holds count ↔ (cut.sink channel).Holds count) :
    Run.Cut cut first second := by
  cases ended with
  | whole left enough => exact .whole left fun channel => (room channel _).1 (enough channel)
  | short within full =>
    obtain ⟨channel, full⟩ := full
    exact .short within ⟨channel, fun holds => full ((room channel _).2 holds)⟩

theorem Sink.holds_handed {cut : Run σ} {channel : Channel} {text : String}
    (fits : (cut.sink channel).fits text) (other : Channel) (count : Nat) :
    ((cut.handed channel text).sink other).Holds count ↔ (cut.sink other).Holds count := by
  rw [Run.sink_handed]
  split
  · rename_i same
    subst same
    exact Sink.holds_write fits count
  · exact Iff.rfl

/-- A text that does not fit ends the second run, and the first goes on behind it. -/
theorem Program.run_full {full cut : Run σ} {channel : Channel} {text : String}
    (beside : Run.Beside full cut) (large : ¬ (cut.sink channel).fits text)
    (lastWords : List String) (next : Program α) :
    Run.Cut cut (next.run handler ((full.handed channel text).record (.printed channel text)))
      (none, (cut.handed channel text).warned handler lastWords) := by
  have unlimited := beside.unlimited.printed channel text
  obtain ⟨value, after, finished, _⟩ := next.run_unlimited handler unlimited
  have later := next.within_run handler
    ((full.handed channel text).record (.printed channel text))
  rw [finished] at later ⊢
  have printed (other : Channel) :
      ((full.handed channel text).sink other).kept <+: (after.sink other).kept := later.kept other
  have whole : (cut.sink channel).kept ++ Sink.bytes text <+: (after.sink channel).kept := by
    have here := printed channel
    rw [Run.sink_handed, if_pos rfl, Sink.kept_write (beside.unlimited.fits channel text)] at here
    rw [beside.kept]
    exact here
  refine .short ⟨?_, ?_⟩ ⟨channel, Sink.not_holds_of_not_fits large whole⟩
  · have before := later.deeds
    rw [Run.deeds_printed, ← beside.deeds] at before
    rw [Run.deeds_warned]
    unfold Run.deeds at before ⊢
    rw [Run.history_handed]
    exact before
  · intro other
    rw [Run.sink_warned, Run.sink_handed]
    split
    · rename_i same
      subst same
      exact (Sink.write_prefix _ _).trans whole
    · rename_i apart
      have there := printed other
      rw [Run.sink_handed, if_neg apart, ← beside.kept] at there
      exact there

/-- Less room only cuts a run short. -/
theorem Program.run_cut (program : Program α) (handler : Handler σ) {full cut : Run σ}
    (beside : Run.Beside full cut) :
    Run.Cut cut (program.run handler full) (program.run handler cut) := by
  induction program generalizing full cut with
  | done value =>
    refine .whole beside fun channel => ?_
    rw [← beside.kept]
    exact Sink.holds_kept _
  | print channel text lastWords next ih =>
    simp only [Program.run]
    rw [if_pos (beside.unlimited.fits channel text)]
    by_cases fits : (cut.sink channel).fits text
    · -- A text that fits takes as much room as it adds, so the channel holds as much as before.
      rw [if_pos fits]
      exact (ih (beside.printed fits)).of_room (Sink.holds_handed fits)
    · rw [if_neg fits]
      exact run_full beside fits lastWords next
  | perform action next ih =>
    obtain ⟨same, left⟩ := beside.performed handler action
    simp only [Program.run]
    rw [same]
    refine (ih _ left).of_room ?_
    intro channel count
    rw [Run.sink_performed]

end PackagePower
