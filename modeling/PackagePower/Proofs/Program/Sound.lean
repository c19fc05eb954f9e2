import PackagePower.Proofs.Program.Fault

/-!
# Faults that are no broken streams

A broken stream ends a run where it happens, and every other fault is one that a program can
report. The two can be told apart as long as no device replies with a broken stream of its own:
an attempt over such replies comes to no such fault either.
-/

namespace PackagePower

variable {α : Type}

/-- The reply is not a broken stream. -/
def Event.Sound : Event → Prop
  | .performed (.read _) reply => reply ≠ .error .brokenStream
  | .performed (.write _ _) reply => reply ≠ .error .brokenStream
  | .performed .readZone reply => reply ≠ .error .brokenStream
  | .performed (.writeZone _) reply => reply ≠ .error .brokenStream
  | _ => True

/-- Over sound replies the attempt comes to no broken stream. -/
def Attempt.Sound (attempt : Attempt α) : Prop :=
  ∀ events, attempt.Ends events (some (.error .brokenStream)) → ∃ event ∈ events, ¬ event.Sound

theorem FaultsIn.of_ne {fault : Fault} {result : Except Fault α} (apart : result ≠ .error fault) :
    FaultsIn (· ≠ fault) result := by
  rintro _ failed rfl
  exact apart failed

theorem Event.Sound.repliesIn {event : Event} (sound : event.Sound) :
    event.RepliesIn (· ≠ .brokenStream) := by
  cases event with
  | printed => trivial
  | performed action reply =>
    cases action with
    | ask | decide | warn => trivial
    | read | write | readZone | writeZone => exact .of_ne sound

/-- What the attempt ends with is no broken stream, unless that was a reply. -/
abbrev Attempt.Unbroken (attempt : Attempt α) : Prop := attempt.EndsIn (· ≠ .brokenStream)

theorem Attempt.Unbroken.sound {attempt : Attempt α} (unbroken : attempt.Unbroken) :
    attempt.Sound := by
  intro events ended
  refine Classical.byContradiction fun none => ?_
  refine unbroken events .brokenStream ended (fun event member => ?_) rfl
  have sound : event.Sound := Classical.byContradiction fun unsound =>
    none ⟨event, member, unsound⟩
  exact sound.repliesIn

end PackagePower
