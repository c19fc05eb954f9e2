import PackagePower.Proofs.Program.Fault
import PackagePower.Proofs.Session.Trace

/-!
# Faults that a session makes itself

A step ends with a fault that a device replied or with one of its own: a text is no choice and no
quantity, watts are out of range, no field holds their units, or there are no microwatts in them.
Watts are counted and converted only after they were checked, each after the one before.
-/

namespace PackagePower.Session
open Attempt

variable {good : Fault → Prop} {panel : Panel}

/-- A fault of what the operator typed, with the check that it failed. -/
inductive Own (panel : Panel) : Fault → Prop where
  | unread (cause : ParseFault) : Own panel (.parse cause)
  | refused {watts : Binary64} {cause : RangeError} :
      checkWatts mostWatts watts = .error cause → Own panel (.range cause)
  | uncounted {watts : Binary64} {cause : RangeError} :
      checkWatts mostWatts watts = .ok watts → panel.unit.limitUnits watts = .error cause →
      Own panel (.range cause)
  | unconverted {watts : Binary64} {units : LimitUnits} {cause : RangeError} :
      checkWatts mostWatts watts = .ok watts → panel.unit.limitUnits watts = .ok units →
      microwatts watts = .error cause → Own panel (.range cause)

theorem inRange_endsIn {α : Type} {checked : Except RangeError α}
    (each : ∀ cause, checked = .error cause → good (.range cause)) :
    (ofExcept (inRange checked)).EndsIn good := by
  apply EndsIn.ofExcept
  cases checked with
  | ok value => exact .ok value
  | error cause => exact .error (each cause rfl)

theorem watts_endsIn (unread : ∀ cause, good (.parse cause)) (answer : String) :
    (ofExcept (Quantity.watts answer)).EndsIn good := by
  apply EndsIn.ofExcept
  unfold Quantity.watts
  cases Binary64.ofText? (Text.trim answer) with
  | none => exact .error (unread _)
  | some value =>
    dsimp only
    split
    · exact .ok _
    · exact .error (unread _)

theorem canceled_endsIn : canceled.EndsIn good := .bind (.lift _) fun _ => .pure _

theorem preview_endsIn (queue : List PendingWrite) : (preview queue).EndsIn good :=
  .bind (.lift _) fun _ => .pure _

theorem menu_endsIn : menu.EndsIn good := by
  refine .bind (.lift _) fun _ => .bind (.lift _) fun answer => ?_
  cases answer with
  | none => exact .bind (.lift _) fun _ => .pure _
  | some answer =>
    dsimp only
    split
    · exact .pure _
    · exact .pure _
    · exact .pure _
    · exact .bind (.lift _) fun _ => .pure _
    · exact .bind (.lift _) fun _ => .pure _

theorem showStatus_endsIn (panel : Panel) : (showStatus panel).EndsIn good := by
  have copy (copy : RegisterCopy) : (showCopy panel copy).EndsIn good :=
    .bind (.read copy) fun _ => .lift _
  exact .bind (copy _) fun _ => .bind (copy _) fun _ =>
    .outcome_bind .readZone fun _ _ => .bind (.lift _) fun _ => .bind (.lift _) fun _ => .pure _

theorem perform_endsIn (pending : PendingWrite) : pending.perform.EndsIn good := by
  cases pending with
  | register copy current next => exact .write copy next
  | zone limits => exact .writeZone limits

theorem confirm_endsIn (queue : List PendingWrite) : (confirm queue).EndsIn good := by
  cases queue with
  | nil => exact .bind (.lift _) fun _ => .pure _
  | cons pending rest =>
    refine .bind (.lift _) fun yes => ?_
    cases yes with
    | false => exact .bind (.lift _) fun _ => .pure _
    | true =>
      refine .outcome_bind (perform_endsIn pending) fun result within => ?_
      cases result with
      | ok => exact .bind (.lift _) fun _ => .pure _
      | error fault =>
        exact .bind (.forM (fun text => .lift _) _) fun _ => .throw (within fault rfl)

section
variable (own : ∀ fault, Own panel fault → good fault)
include own

theorem askWatts_endsIn (label : String) : (askWatts label).EndsIn good := by
  refine .bind (.lift _) fun answer => ?_
  cases answer with
  | none => exact .pure none
  | some answer =>
    refine .bind (watts_endsIn (fun cause => own _ (.unread cause)) answer) fun watts => ?_
    simp only [map_eq_pure_bind]
    refine .bind (inRange_endsIn fun cause refused => ?_) fun _ => .pure _
    exact own _ (.refused refused)

/-- Only watts with units are converted, and only those that passed the check. -/
theorem propose_endsIn (target : WriteTarget) {watts₁ watts₂ : Binary64}
    (checked₁ : checkWatts mostWatts watts₁ = .ok watts₁)
    (checked₂ : checkWatts mostWatts watts₂ = .ok watts₂) :
    (propose panel target watts₁ watts₂).EndsIn good := by
  have register (first second : LimitUnits) (copy : RegisterCopy) :
      (limitWrite first second copy).EndsIn good := .bind (.read copy) fun _ => .pure _
  refine .bind_of_succeeds (inRange_endsIn fun cause refused => ?_) fun _ first counted₁ => ?_
  · exact own _ (.uncounted checked₁ refused)
  refine .bind_of_succeeds (inRange_endsIn fun cause refused => ?_) fun _ second counted₂ => ?_
  · exact own _ (.uncounted checked₂ refused)
  rw [succeeds_ofExcept, inRange_eq_ok] at counted₁ counted₂
  refine .bind (.mapM (register first second) _) fun _ => ?_
  refine .bind (inRange_endsIn fun cause refused => ?_) fun _ => ?_
  · exact own _ (.unconverted checked₁ counted₁.2 refused)
  refine .bind (inRange_endsIn fun cause refused => ?_) fun _ => ?_
  · exact own _ (.unconverted checked₂ counted₂.2 refused)
  exact .bind (.lift _) fun _ => preview_endsIn _

theorem setLimits_endsIn : (setLimits panel).EndsIn good := by
  refine .bind_of_succeeds (askWatts_endsIn own _) fun _ watts₁ asked₁ => ?_
  cases watts₁ with
  | none => exact canceled_endsIn
  | some watts₁ =>
    refine .bind_of_succeeds (askWatts_endsIn own _) fun _ watts₂ asked₂ => ?_
    cases watts₂ with
    | none => exact canceled_endsIn
    | some watts₂ =>
      refine .bind (.lift _) fun _ => .bind (.lift _) fun answer => ?_
      cases answer with
      | none => exact canceled_endsIn
      | some answer =>
        obtain ⟨_, _, _, _, _, checked₁⟩ := askWatts_some asked₁
        obtain ⟨_, _, _, _, _, checked₂⟩ := askWatts_some asked₂
        dsimp only
        split
        · exact .throw (own _ (.unread _))
        · exact propose_endsIn own _ checked₁ checked₂

theorem syncLimits_endsIn : syncLimits.EndsIn good := by
  refine .bind (.lift _) fun _ => .bind (.lift _) fun answer => ?_
  cases answer with
  | none => exact canceled_endsIn
  | some answer =>
    dsimp only
    split
    · exact .throw (own _ (.unread _))
    · exact .bind (.read _) fun _ => .bind (.read _) fun _ => preview_endsIn _

/-- A step ends with a fault that it makes itself or that was replied. -/
theorem advance_endsIn (state : SessionState) : (advance panel state).EndsIn good := by
  cases state with
  | idle => exact menu_endsIn
  | showStatus => exact showStatus_endsIn panel
  | setLimits => exact setLimits_endsIn own
  | syncLimits => exact syncLimits_endsIn own
  | confirm queue => exact confirm_endsIn queue
  | exit => exact .pure _

end

end PackagePower.Session
