import PackagePower.Proofs.Binary64.Nearest
import PackagePower.Proofs.Register.PowerLimit
import PackagePower.Proofs.Session.Confirmation
import PackagePower.Proofs.Session.Fault
import PackagePower.Proofs.Session.Watts

/-!
# Microwatts beside units

New limits go to the registers in units of power and to the power zone in microwatts. Both are
rounded from the same watts, the units by half a unit at most and the microwatts by less than one,
so they stay together. What makes a unit makes a microwatt, so no session is refused a conversion
and none writes a limit of zero to the zone.
-/

namespace PackagePower

-- Powers of whole numbers are core's, whatever else is imported.
attribute [local instance (1100)] instPowNat

open Binary64

/-! ## One conversion -/

/-- Up to 5000 watts the product by a million is finite, and its whole number is not clamped. -/
theorem microwatts_of_steps {watts : Binary64} {steps : Nat} (found : watts.positive? = some steps)
    (most : steps ≤ 5000 * 2 ^ stepBits) :
    ∃ count ≤ 5000000000,
      microwatts watts = (if count = 0 then .error (.notPositive watts) else .ok (.ofNat count)) ∧
      count * 2 ^ stepBits < steps * 1000000 + 2 ^ stepBits ∧
      steps * 1000000 < count * 2 ^ stepBits + 2 ^ stepBits := by
  obtain ⟨_, fits, rfl⟩ := of_positive? found
  have large : 5000000000 < 2 ^ leadingBits := by decide
  have product : steps * 1000000 ≤ 5000000000 * 2 ^ stepBits := by omega
  have small : steps * 1000000 < 2 ^ (fractionBits + stepBits) := by
    rw [Nat.pow_add]
    apply Nat.lt_of_le_of_lt product
    exact Nat.mul_lt_mul_of_pos_right (by decide) (Nat.two_pow_pos _)
  obtain ⟨rounded, kept, times, within⟩ := nearest_le Nat.one_pos
    (.count large (Nat.le_refl stepBits)) (Nat.le_trans product (Nat.mul_one _).ge) false
  have whole : roundHalfUp rounded ≤ 5000000000 := by
    rw [← roundHalfUp_whole 5000000000]
    exact roundHalfUp_mono within
  have unclamped : min (roundHalfUp rounded) (UInt64.size - 1) = roundHalfUp rounded := by
    apply Nat.min_eq_left
    exact Nat.le_trans whole (by decide)
  refine ⟨roundHalfUp rounded, whole, ?_, roundHalfUp_nearest small times⟩
  have multiplied : (finite false steps fits).timesNat 1000000 = .finite false rounded kept := times
  unfold microwatts
  rw [found]
  simp only [multiplied, unclamped]

/-- Microwatts that are the watts to less than one, and the units to half a unit more. -/
structure Agree (unit : PowerUnit) (watts : Binary64) (units : LimitUnits) (count : UInt64) :
    Prop where
  positive : 1 ≤ count.toNat
  bounded : count.toNat ≤ 5 * 10 ^ 9
  watts : ∃ x, watts.toRat? = some x ∧ |(count.toNat : ℚ) - 10 ^ 6 * x| < 1
  units : |(count.toNat : ℚ) - 10 ^ 6 * (units.count / 2 ^ unit.power.toNat)| <
    10 ^ 6 / 2 ^ (unit.power.toNat + 1) + 1

theorem abs_sub_div_lt_one {count value one : ℕ} (positive : 0 < one)
    (above : count * one < value + one) (below : value < count * one + one) :
    |(count : ℚ) - value / one| < 1 := by
  have one_pos : (0 : ℚ) < one := by exact_mod_cast positive
  have high : ((count : ℚ) - 1) < value / one := by
    rw [lt_div_iff₀ one_pos, sub_mul, one_mul, sub_lt_iff_lt_add]
    exact_mod_cast above
  have low : (value : ℚ) / one < count + 1 := by
    rw [div_lt_iff₀ one_pos, add_mul, one_mul]
    exact_mod_cast below
  rw [abs_lt]
  constructor <;> linarith

theorem agree_of_counted {unit : PowerUnit} (small : unit.power.toNat ≤ 15) {watts : Binary64}
    {units : LimitUnits} (checked : checkWatts Session.mostWatts watts = .ok watts)
    (counted : unit.limitUnits watts = .ok units) :
    ∃ count, microwatts watts = .ok count ∧ Agree unit watts units count := by
  obtain ⟨steps, fits, same, above, most⟩ := Session.permitted_of_checked checked
  have found : watts.positive? = some steps := by
    rw [same]
    exact if_neg (Nat.ne_of_gt above)
  obtain ⟨whole, bounded, converted, near⟩ := microwatts_of_steps found most
  obtain ⟨count, accepted⟩ := microwatts_of_limitUnits small counted
  have nonzero : whole ≠ 0 := by
    rintro rfl
    rw [accepted] at converted
    cases converted
  rw [if_neg nonzero] at converted
  have value : (UInt64.ofNat whole).toNat = whole := by
    apply UInt64.toNat_ofNat_of_lt'
    exact Nat.lt_of_le_of_lt bounded (by decide)
  have exact_watts : watts.toRat? = some ((steps : ℚ) / 2 ^ stepBits) :=
    (toRat?_of_positive? found).2
  have within : |(whole : ℚ) - 10 ^ 6 * (steps / 2 ^ stepBits)| < 1 := by
    have scaled : (10 : ℚ) ^ 6 * (steps / 2 ^ stepBits) =
        ((steps * 1000000 : ℕ) : ℚ) / ((2 ^ stepBits : ℕ) : ℚ) := by
      push_cast
      ring
    rw [scaled]
    exact abs_sub_div_lt_one (Nat.two_pow_pos _) near.1 near.2
  have encoded : |(units.count : ℚ) / 2 ^ unit.power.toNat - steps / 2 ^ stepBits| ≤
      1 / 2 ^ (unit.power.toNat + 1) := by
    obtain ⟨others, also, nearest⟩ := PowerUnit.of_limitUnits counted
    cases found.symm.trans also
    rw [nearest, PowerUnit.nearestCount_eq_exactCount]
    exact PowerUnit.exactCount_near (by positivity)
  refine ⟨_, converted, ?_, ?_, ⟨_, exact_watts, ?_⟩, ?_⟩
  · rw [value]
    exact Nat.pos_of_ne_zero nonzero
  · rw [value]
    exact bounded
  · rwa [value]
  · have half : (10 : ℚ) ^ 6 / 2 ^ (unit.power.toNat + 1) =
        10 ^ 6 * (1 / 2 ^ (unit.power.toNat + 1)) := by ring
    rw [value, half]
    rw [abs_lt] at within ⊢
    rw [abs_le] at encoded
    constructor <;> linarith

namespace Session
open Attempt

/-! ## Queues -/

/-- The registers of new limits are to hold their counts. -/
theorem counts_of_limited {first second : LimitUnits} (readings : List (RegisterCopy × Word))
    (zone : ZoneLimits) (copy : RegisterCopy) (current next : Word)
    (member : .register copy current next ∈
      readings.map (limited first second) ++ [PendingWrite.zone zone]) :
    next.limitCounts = (first.count, second.count) := by
  rcases List.mem_append.1 member with register | last
  · obtain ⟨reading, _, same⟩ := List.mem_map.1 register
    cases same
    exact Word.limitCounts_withLimits _ first second
  · cases List.mem_singleton.1 last

/-- No write of the power zone has a limit of zero. -/
def Nonzero (queue : List PendingWrite) : Prop :=
  ∀ limits, .zone limits ∈ queue → limits.first ≠ 0 ∧ limits.second ≠ 0

theorem step_nonzero {panel : Panel} {state : SessionState} {events : List Event}
    {queue : List PendingWrite} (before : ∀ earlier, state = .confirm earlier → Nonzero earlier)
    (trace : (step panel state).Trace events (some (.confirm queue))) : Nonzero queue := by
  intro limits member
  rcases step_queue trace with ⟨rfl, typed⟩ | ⟨rfl, synced⟩ | ⟨pending, rfl⟩
  · obtain ⟨_, _, _, _, _, _, _, _, _, proposed, _⟩ := setLimits_confirm typed
    obtain ⟨_, _, zone, readings, _, _, _, first, second, same, _⟩ := propose_succeeds proposed
    cases same
    rcases List.mem_append.1 member with register | last
    · obtain ⟨reading, _, impossible⟩ := List.mem_map.1 register
      cases impossible
    · cases List.mem_singleton.1 last
      exact ⟨ne_zero_of_microwatts first, ne_zero_of_microwatts second⟩
  · obtain ⟨_, _, _, _, rfl, _⟩ := syncLimits_confirm synced
    cases List.mem_singleton.1 member
  · exact before _ rfl limits (List.mem_cons_of_mem pending member)

section
variable {σ : Type} (panel : Panel) (handler : Handler σ) (start : Run σ)

theorem course_nonzero {count : Nat} {queue : List PendingWrite} {run : Run σ}
    (reached : course panel handler start count = (some (.confirm queue), run)) :
    Nonzero queue := by
  apply course_induction panel handler start
    (fun _ state _ => ∀ queue, state = .confirm queue → Nonzero queue) _ _ reached queue rfl
  · intro queue same
    cases same
  · rintro _ state _ before events later _ trace _ _ queue rfl
    exact step_nonzero before trace

/-- What a session writes to the power zone was confirmed, so it has no limit of zero. -/
theorem writeZone_nonzero (fresh : start.events = []) {count : Nat} {limits : ZoneLimits}
    {reply : Except Fault Unit}
    (written : .performed (.writeZone limits) reply ∈
      (course panel handler start count).2.history) :
    limits.first ≠ 0 ∧ limits.second ≠ 0 := by
  obtain ⟨before, later, split⟩ := List.append_of_mem written
  have attempt : (Event.performed (.writeZone limits) reply).attempt? ≠ none := nofun
  obtain ⟨_, _, pending, rest, run, _, _, reached, _, attempted, _⟩ :=
    attempt_confirmed panel handler start fresh attempt split
  cases pending with
  | register => cases attempted
  | zone queued =>
    cases attempted
    exact course_nonzero panel handler start reached limits List.mem_cons_self

end

/-! ## Faults -/

/-- A quantity out of range failed the check of watts, or has no units though it passed. -/
def Judged (panel : Panel) (fault : Fault) : Prop :=
  ∀ cause, fault = .range cause →
    (∃ watts, checkWatts mostWatts watts = .error cause) ∨
      ∃ watts, checkWatts mostWatts watts = .ok watts ∧
        panel.unit.limitUnits watts = .error cause

theorem Own.judged {panel : Panel} (small : panel.unit.power.toNat ≤ 15) {fault : Fault}
    (own : Own panel fault) : Judged panel fault := by
  intro cause same
  cases own with
  | unread => cases same
  | refused refused =>
    cases same
    exact .inl ⟨_, refused⟩
  | uncounted checked uncounted =>
    cases same
    exact .inr ⟨_, checked, uncounted⟩
  | unconverted checked counted unconverted =>
    obtain ⟨count, converted⟩ := microwatts_of_limitUnits small counted
    rw [converted] at unconverted
    cases unconverted

/-! ## Sessions -/

/-- What a session writes to the registers and to the power zone agrees. Watts that pass the check
and have units have microwatts that agree with these; every queue of new limits is of such units
and microwatts, for the watts that were typed; no step is refused a conversion to microwatts; and
no limit of zero gets to the power zone. -/
theorem zone_agrees_with_registers (panel : Panel) (small : panel.unit.power.toNat ≤ 15) :
    (∀ watts units, checkWatts mostWatts watts = .ok watts →
      panel.unit.limitUnits watts = .ok units →
        ∃ count, microwatts watts = .ok count ∧ Agree panel.unit watts units count) ∧
    (∀ events queue, (step panel .setLimits).Trace events (some (.confirm queue)) →
      ∃ line₁ line₂ watts₁ watts₂ rest,
        events = .performed (.ask "PL1 watts (q to cancel): ") (some line₁) ::
          .performed (.ask "PL2 watts (q to cancel): ") (some line₂) :: rest ∧
        Typed line₁ watts₁ ∧ Typed line₂ watts₂ ∧
        ∃ (first second : LimitUnits) (zone : ZoneLimits) (readings : List (RegisterCopy × Word)),
          queue = readings.map (limited first second) ++ [.zone zone] ∧
          (∀ copy current next, .register copy current next ∈ queue →
            next.limitCounts = (first.count, second.count)) ∧
          panel.unit.limitUnits watts₁ = .ok first ∧ panel.unit.limitUnits watts₂ = .ok second ∧
          microwatts watts₁ = .ok zone.first ∧ microwatts watts₂ = .ok zone.second ∧
          Agree panel.unit watts₁ first zone.first ∧
          Agree panel.unit watts₂ second zone.second) ∧
    (∀ state, (advance panel state).EndsIn (Judged panel)) ∧
    ∀ (σ : Type) (handler : Handler σ) (world : σ) (out err : Sink) (count : Nat)
      (limits : ZoneLimits) (reply : Except Fault Unit),
      .performed (.writeZone limits) reply ∈
        (course panel handler { world, out, err } count).2.history →
      limits.first ≠ 0 ∧ limits.second ≠ 0 := by
  have agrees {watts : Binary64} {units : LimitUnits} {count : UInt64}
      (checked : checkWatts mostWatts watts = .ok watts)
      (counted : panel.unit.limitUnits watts = .ok units)
      (converted : microwatts watts = .ok count) : Agree panel.unit watts units count := by
    obtain ⟨found, same, agree⟩ := agree_of_counted small checked counted
    cases converted.symm.trans same
    exact agree
  refine ⟨fun watts units => agree_of_counted small, ?_, ?_, ?_⟩
  · intro events queue trace
    rcases step_queue trace with ⟨_, reached⟩ | ⟨impossible, _⟩ | ⟨_, impossible⟩
    · obtain ⟨line₁, line₂, watts₁, watts₂, target, before, after, typed₁, typed₂, proposed,
        asked⟩ := setLimits_confirm reached
      obtain ⟨first, second, zone, readings, counted₁, counted₂, _, converted₁, converted₂, same,
        _⟩ := propose_succeeds proposed
      obtain ⟨_, _, _, checked₁⟩ := id typed₁
      obtain ⟨_, _, _, checked₂⟩ := id typed₂
      cases same
      exact ⟨line₁, line₂, watts₁, watts₂, _, asked, typed₁, typed₂, first, second, zone, readings,
        rfl, counts_of_limited readings zone, counted₁, counted₂, converted₁, converted₂,
        agrees checked₁ counted₁ converted₁, agrees checked₂ counted₂ converted₂⟩
    · cases impossible
    · cases impossible
  · intro state
    exact advance_endsIn (fun fault own => own.judged small) state
  · intro σ handler world out err count limits reply written
    exact writeZone_nonzero panel handler _ rfl written

/-- A panel with the smallest unit that there is. -/
def finestPanel : Panel := ⟨⟨15, 14, 10⟩, RegisterCopy.name, "zone"⟩

/-- Half of that unit in watts. -/
def halfUnit : Binary64 := .ofRatio false 1 (2 ^ 16)

/-- Half a unit is the least that makes one, and there are fifteen microwatts in it. -/
theorem half_unit_agrees :
    finestPanel.unit.limitUnits halfUnit = .ok ⟨1, by decide, by decide⟩ ∧
      microwatts halfUnit = .ok 15 ∧
      Agree finestPanel.unit halfUnit ⟨1, by decide, by decide⟩ 15 := by
  have checked : checkWatts mostWatts halfUnit = .ok halfUnit := by decide +kernel
  have counted : finestPanel.unit.limitUnits halfUnit = .ok ⟨1, by decide, by decide⟩ := by
    decide +kernel
  have converted : microwatts halfUnit = .ok 15 := by decide +kernel
  obtain ⟨conversions, _⟩ := zone_agrees_with_registers finestPanel (by decide)
  obtain ⟨count, same, agree⟩ := conversions _ _ checked counted
  cases converted.symm.trans same
  exact ⟨counted, converted, agree⟩

end Session
end PackagePower
