import PackagePower.Proofs.Device.Fault
import PackagePower.Proofs.Program.Cut
import PackagePower.Proofs.Program.Sound
import PackagePower.Proofs.Session.Course
import PackagePower.Proofs.Session.Fault

/-!
# A session cut short

A session prints as it goes, and a channel that takes no more ends it. What had happened by then
is a first part of what happens with channels that take everything, and nothing else ends a
session early: whatever the devices and the operator reply, a fault is reported and the session
goes on.
-/

namespace PackagePower.Session

variable {σ : Type}

/-! ## What a step reports -/

theorem advance_ends_unbroken (panel : Panel) (state : SessionState) :
    (advance panel state).Unbroken := by
  apply advance_endsIn
  intro fault own
  cases own <;> nofun

/-- What a step reports is never a broken stream, unless a device replied with one. -/
theorem advance_sound (panel : Panel) (state : SessionState) : (advance panel state).Sound :=
  (advance_ends_unbroken panel state).sound

/-- What a step reports over devices that never reply with a broken stream is none, so that whatever
is reported there goes to the operator. -/
theorem advance_unbroken {ω : Type} {station : Station σ}
    (within : station.RepliesIn (· ≠ .brokenStream)) (operator : Operator ω) (panel : Panel)
    (state : SessionState) {run : Run (ω × σ)} (unlimited : run.Unlimited) :
    ((advance panel state).run (operator.at station) run).1 ≠ .error .brokenStream := by
  intro broken
  exact (advance_ends_unbroken panel state).run within unlimited .brokenStream broken rfl

/-! ## Whole sessions -/

/-- A session of at most `count` steps, which a channel that takes no more ends with a fault. -/
def attempt (panel : Panel) (count : Nat) : Attempt SessionState :=
  ExceptT.lift (steps panel count .idle)

/-- How a session ended, as the attempt has it. -/
def ending (reached : Option SessionState) : Except Fault SessionState :=
  reached.elim (.error .brokenStream) .ok

theorem ending_eq_error {reached : Option SessionState} {fault : Fault} :
    ending reached = .error fault ↔ reached = none ∧ fault = .brokenStream := by
  cases reached <;> simp [ending, eq_comm]

theorem attempt_run (panel : Panel) (handler : Handler σ) (start : Run σ) (count : Nat) :
    (attempt panel count).run handler start =
      (ending (course panel handler start count).1, (course panel handler start count).2) := by
  have lifted : ExceptT.run (attempt panel count) =
      steps panel count .idle >>= fun state => .done (.ok state) := map_eq_pure_bind _ _
  unfold Attempt.run course
  rw [lifted, Program.run_bind]
  rcases (steps panel count .idle).run handler start with ⟨_ | state, after⟩ <;> rfl

/-- With channels of limited room a session is what it is with channels that take everything, up
to the first text that does not fit. It fails exactly where not all that is printed fits, and a
step by itself never does: no fault that it comes to is a broken stream where the devices reply with
none. -/
theorem broken_stream_cuts_short (panel : Panel) (handler : Handler σ) (world : σ)
    (outRoom errRoom : Option Nat) (count : Nat) :
    let start : Run σ := { world, out := { room := outRoom }, err := { room := errRoom } }
    let cut := (attempt panel count).run handler start
    let full := (attempt panel count).run handler { world }
    cut.2.deeds <+: full.2.deeds ∧
    cut.2.out.kept <+: full.2.out.kept ∧ cut.2.err.kept <+: full.2.err.kept ∧
    (∀ fault, cut.1 = .error fault ↔ fault = .brokenStream ∧
      ((∃ room, outRoom = some room ∧ room < full.2.out.kept.length) ∨
        ∃ room, errRoom = some room ∧ room < full.2.err.kept.length)) ∧
    (cut.1 = .error .brokenStream ∨ cut.1 = full.1 ∧ cut.2.deeds = full.2.deeds) ∧
    (∃ state, full.1 = .ok state) ∧
    ∀ state, (advance panel state).Sound ∧
      (∀ (world : σ) (out err : List UInt8) (events : List Event), ∃ next,
        ((step panel state).run handler
          { world, out := { kept := out }, err := { kept := err }, events }).1 = some next) ∧
      ∀ (ω ρ : Type) (station : Station ρ) (operator : Operator ω) (run : Run (ω × ρ)),
        station.RepliesIn (· ≠ .brokenStream) → run.Unlimited →
          ((advance panel state).run (operator.at station) run).1 ≠ .error .brokenStream := by
  intro start cut full
  have unlimited (world : σ) (out err : List UInt8) (events : List Event) :
      Run.Unlimited { world, out := { kept := out }, err := { kept := err }, events } := by
    intro channel
    cases channel <;> rfl
  have beside : Run.Beside { world } start := by
    refine ⟨unlimited world [] [] [], rfl, rfl, ?_⟩
    intro channel
    cases channel <;> rfl
  have ended : Run.Cut start (course panel handler { world } count)
      (course panel handler start count) := Program.run_cut _ handler beside
  obtain ⟨last, after, finished, _⟩ :=
    (steps panel count .idle).run_unlimited handler (unlimited world [] [] [])
  have less : (∃ channel, ¬ (start.sink channel).Holds
        ((course panel handler { world } count).2.sink channel).kept.length) ↔
      (∃ room, outRoom = some room ∧
          room < (course panel handler { world } count).2.out.kept.length) ∨
        ∃ room, errRoom = some room ∧
          room < (course panel handler { world } count).2.err.kept.length :=
    Channel.exists_iff.trans (or_congr Sink.not_holds_of_empty Sink.not_holds_of_empty)
  unfold cut full
  rw [attempt_run, attempt_run]
  refine ⟨ended.within.deeds, ended.within.kept .out, ended.within.kept .err, ?_, ?_,
    ⟨last, ?_⟩, ?_⟩
  · intro fault
    rw [ending_eq_error, ended.eq_none_iff, less, and_comm]
  · rcases ended.none_or_same with short | ⟨same, deeds⟩
    · exact .inl (congrArg ending short)
    · exact .inr ⟨congrArg ending same, deeds⟩
  · unfold course
    rw [finished]
    rfl
  · intro state
    refine ⟨advance_sound panel state, ?_, ?_⟩
    · intro world out err events
      obtain ⟨next, _, stepped, _⟩ :=
        (step panel state).run_unlimited handler (unlimited world out err events)
      exact ⟨next, congrArg Prod.fst stepped⟩
    · intro ω ρ station operator run replies unlimited
      exact advance_unbroken replies operator panel state unlimited

end PackagePower.Session
