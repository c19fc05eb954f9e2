import PackagePower.Proofs.Scan
import PackagePower.Proofs.Session.Trace

/-!
# Limits that were set and are looked for

Setting limits and looking for them count watts the same way, and the enable bits are none that
setting changes. So a scan for the watts that were set finds the register they were set in, and
of the rest of the window what it found before.
-/

namespace PackagePower

namespace OneShot

variable {unit : PowerUnit} {watts₁ watts₂ : Binary64} {found target : Word}

/-- A limit that may be set is counted as a scan counts it. -/
theorem limitUnits_of_limitOf {watts : Binary64} {units : LimitUnits}
    (permitted : limitOf unit watts = .ok units) : unit.limitUnits watts = .ok units := by
  unfold limitOf at permitted
  cases checked : checkWatts mostWatts watts with
  | error cause =>
    rw [checked] at permitted
    cases permitted
  | ok same =>
    rw [checked] at permitted
    rw [Session.eq_of_checkWatts checked] at permitted
    exact permitted

/-- What is to be written is the register with the limits that a scan looks for. -/
theorem scanTarget_of_set (aimed : (OneShot.set watts₁ watts₂).target found unit = .ok target) :
    ∃ sought, ScanTarget.ofWatts unit watts₁ watts₂ = .ok sought ∧
      target = found.withLimits sought.first sought.second := by
  unfold OneShot.target at aimed
  cases permitted₁ : limitOf unit watts₁ with
  | error cause =>
    simp only [permitted₁] at aimed
    cases aimed
  | ok first =>
    cases permitted₂ : limitOf unit watts₂ with
    | error cause =>
      simp only [permitted₁, permitted₂] at aimed
      cases aimed
    | ok second =>
      simp only [permitted₁, permitted₂] at aimed
      cases aimed
      refine ⟨⟨first, second⟩, ?_, rfl⟩
      unfold ScanTarget.ofWatts
      rw [limitUnits_of_limitOf permitted₁, limitUnits_of_limitOf permitted₂]
      rfl

end OneShot

theorem ScanTarget.isMatch_withLimits (sought : ScanTarget) (mode : MatchMode) (current : Word) :
    sought.isMatch mode (current.withLimits sought.first sought.second) = true ↔
      mode = .any ∨ current.Enabled := by
  rw [isMatch_iff, Word.limitCounts_withLimits, Word.enabled_withLimits]
  exact and_iff_right rfl

namespace OneShot

variable {ω : Type} {operator : Operator ω} {window : Window} {zone : Zone} {offset : Nat}
  {unit : PowerUnit} {watts₁ watts₂ : Binary64} {place command : String}
  {start after : Run (ω × Host)} {value : Word}

/-- After limits were set in a slot, a scan for the same watts finds that slot with the value read
back, provided that both limits were enabled where it asks for that. At every other slot it finds
what it found before. -/
theorem set_limits_are_found (writable : window.access = .readWrite) (aligned : offset % 8 = 0)
    (inside : offset + 8 ≤ window.size)
    (backed : window.base.toNat + offset + 8 ≤ (start.world.2.contents window.memory).size)
    (ran : ((OneShot.set watts₁ watts₂).run unit place command).run
      (operator.at (window.station offset zone)) start = (.ok value, after)) :
    ∃ sought, ScanTarget.ofWatts unit watts₁ watts₂ = .ok sought ∧
      ∀ mode, ∃ before found, window.scan start.world.2 sought mode = .ok before ∧
        window.scan after.world.2 sought mode = .ok found ∧
        found.filter (fun report => report.offset = offset) =
          (if mode = .any ∨ (window.register start.world.2 offset).Enabled then
            [⟨offset, value⟩] else []) ∧
        found.filter (fun report => report.offset ≠ offset) =
          before.filter (fun report => report.offset ≠ offset) := by
  obtain ⟨events, trace, _, replays⟩ := Attempt.succeeds_of_run ran
  obtain ⟨current, target, aimed, rfl⟩ := run_succeeds.1 trace
  obtain ⟨_, rfl, rfl, left⟩ := (course_replays writable).1 replays
  obtain ⟨sought, counted, rfl⟩ := scanTarget_of_set aimed
  have slot : offset ∈ window.slots := Window.mem_slots.2 ⟨aligned, inside⟩
  refine ⟨sought, counted, fun mode => ⟨_, _, window.scan_eq _ _ _, window.scan_eq _ _ _, ?_, ?_⟩⟩
  · have matched := sought.isMatch_withLimits mode (window.register start.world.2 offset)
    rw [Window.found_at_slot slot, left]
    unfold Window.found?
    simp only [Window.register_stored backed, matched]
    split <;> rfl
  · rw [left]
    exact Window.found_elsewhere slot

/-- Memory with nothing in it but a register at 16, both limits of which are enabled. -/
def oneRegister : Host where
  entries := []
  files := [(⟨[], 0⟩, (Contents.zeros 64).write 16 0x0000800000008000#64)]
  made := 1

def oneWindow : Window := ⟨⟨[], 0⟩, 0#64, 64, .readWrite⟩

/-- 55 and 157 watts in eighths of a watt. -/
def usualUnits : ScanTarget where
  first := ⟨440, by decide, by decide⟩
  second := ⟨1256, by decide, by decide⟩

theorem usual_limits_are_found :
    ∃ value after found,
      ((OneShot.set (.ofNat 55) (.ofNat 157)).run .eighthWatt "" "").run
          (Script.operator.at (oneWindow.station 16 ⟨⟨"", []⟩⟩))
          { world := (⟨[], []⟩, oneRegister) } = (.ok value, after) ∧
        value = (oneWindow.register oneRegister 16).withLimits usualUnits.first usualUnits.second ∧
        oneWindow.scan after.world.2 usualUnits .enabled = .ok found ∧
        found.filter (fun report => report.offset = 16) = [⟨16, value⟩] := by
  have counted : ScanTarget.ofWatts .eighthWatt (.ofNat 55) (.ofNat 157) = .ok usualUnits := by
    decide +kernel
  have unlimited : Run.Unlimited
      { world := ((⟨[], []⟩, oneRegister) : Script × Host) } := by
    intro channel
    cases channel <;> rfl
  have backed : oneWindow.base.toNat + 16 + 8 ≤
      (oneRegister.contents oneWindow.memory).size := by decide
  have aimed : (OneShot.set (.ofNat 55) (.ofNat 157)).target (oneWindow.register oneRegister 16)
      .eighthWatt = .ok ((oneWindow.register oneRegister 16).withLimits usualUnits.first
        usualUnits.second) := by decide +kernel
  obtain ⟨after, ran, _, left⟩ := Attempt.run_of_succeeds unlimited
    (run_succeeds.2 ⟨_, _, aimed, rfl⟩)
    ((course_replays rfl).2 ⟨rfl, rfl, rfl, rfl⟩)
  obtain ⟨sought, same, scans⟩ := set_limits_are_found rfl rfl (by decide) backed ran
  cases counted.symm.trans same
  obtain ⟨before, found, _, scanned, there, _⟩ := scans .enabled
  have enabled : (oneWindow.register oneRegister 16).Enabled := by decide +kernel
  rw [if_pos (.inr enabled)] at there
  exact ⟨_, after, found, ran, Window.register_stored backed, scanned, there⟩

end OneShot
end PackagePower
