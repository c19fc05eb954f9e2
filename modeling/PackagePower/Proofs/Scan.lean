import Mathlib.Data.List.Nodup
import PackagePower.Proofs.Device.Window
import PackagePower.Proofs.Register.PowerLimit
import PackagePower.Scan

/-!
# What a scan finds

A window is divided into slots of eight bytes, and what is left behind the last of them belongs
to none. A scan lists the slots that match, each with the word it holds, and never fails. A store
to one slot changes what is found there and at no other.
-/

namespace PackagePower

-- Powers of whole numbers are core's, whatever else is imported.
attribute [local instance (1100)] instPowNat

/-! ## Matching words -/

/-- Both limits of the word are enabled. -/
def Word.Enabled (value : Word) : Prop := value.getLsbD 15 = true ∧ value.getLsbD 47 = true

instance (value : Word) : Decidable value.Enabled :=
  inferInstanceAs (Decidable (value.getLsbD 15 = true ∧ value.getLsbD 47 = true))

theorem Word.enabled_withLimits (current : Word) (first second : LimitUnits) :
    (current.withLimits first second).Enabled ↔ current.Enabled := by
  unfold Enabled
  rw [getLsbD_withLimits_of_outside current first second (powerFields_of_outside (by omega)),
    getLsbD_withLimits_of_outside current first second (powerFields_of_outside (by omega))]

namespace ScanTarget

theorem isMatch_iff {target : ScanTarget} {mode : MatchMode} {value : Word} :
    target.isMatch mode value = true ↔
      value.limitCounts = (target.first.count, target.second.count) ∧
        (mode = .any ∨ value.Enabled) := by
  rw [Word.limitCounts_eq_decode]
  unfold isMatch Word.Enabled
  simp [PowerLimit.decode, LimitHalf.decode, and_assoc]

end ScanTarget

namespace Window

variable {window : Window} {host : Host} {target : ScanTarget} {mode : MatchMode}

/-! ## Slots -/

/-- Where the slots of the window are, in ascending order. -/
def slots (window : Window) : List Nat :=
  (List.range (window.size / scanStride)).map (· * scanStride)

theorem mem_slots {offset : Nat} :
    offset ∈ window.slots ↔ offset % 8 = 0 ∧ offset + 8 ≤ window.size := by
  unfold slots scanStride
  simp only [List.mem_map, List.mem_range]
  constructor
  · rintro ⟨slot, below, rfl⟩
    omega
  · rintro ⟨aligned, inside⟩
    exact ⟨offset / 8, by omega, by omega⟩

theorem ascending_slots (window : Window) : window.slots.Pairwise (· < ·) := by
  unfold slots scanStride
  rw [List.pairwise_map]
  apply List.pairwise_lt_range.imp
  intro slot later before
  omega

theorem nodup_slots (window : Window) : window.slots.Nodup := by
  apply (ascending_slots window).imp
  intro slot later before
  omega

theorem contains_of_mem_slots {offset : Nat} (slot : offset ∈ window.slots) :
    window.contains offset = true := by
  obtain ⟨aligned, inside⟩ := mem_slots.1 slot
  unfold contains
  simp only [Bool.and_eq_true, decide_eq_true_eq]
  omega

/-! ## Matches -/

/-- The match at a place, where there is one. -/
def found? (window : Window) (host : Host) (target : ScanTarget) (mode : MatchMode)
    (offset : Nat) : Option ScanMatch :=
  if target.isMatch mode (window.register host offset) then
    some ⟨offset, window.register host offset⟩
  else none

theorem probe_of_mem_slots {offset : Nat} (slot : offset ∈ window.slots) :
    window.probe host target mode offset = .ok (window.found? host target mode offset) := by
  unfold probe
  rw [read_eq_ok.2 ⟨contains_of_mem_slots slot, rfl⟩]
  rfl

theorem mapM_probe {offsets : List Nat} (slots : ∀ offset ∈ offsets, offset ∈ window.slots) :
    offsets.mapM (window.probe host target mode) =
      .ok (offsets.map (window.found? host target mode)) := by
  induction offsets with
  | nil => rfl
  | cons offset rest ih =>
    have first : window.probe host target mode offset = _ :=
      probe_of_mem_slots (slots offset List.mem_cons_self)
    have later := ih fun other member => slots other (List.mem_cons_of_mem _ member)
    rw [List.mapM_cons, first, later]
    rfl

/-- A scan lists the slots that match, and it cannot fail. -/
theorem scan_eq (window : Window) (host : Host) (target : ScanTarget) (mode : MatchMode) :
    window.scan host target mode =
      .ok (window.slots.filterMap (window.found? host target mode)) := by
  have probed : window.slots.mapM (window.probe host target mode) = _ :=
    mapM_probe fun _ slot => slot
  change (window.slots.mapM (window.probe host target mode) >>= fun probed =>
    .ok (probed.filterMap id)) = _
  rw [probed]
  change Except.ok _ = _
  rw [List.filterMap_map]
  rfl

theorem found?_eq_some {offset : Nat} {found : ScanMatch} :
    window.found? host target mode offset = some found ↔
      found = ⟨offset, window.register host offset⟩ ∧
        target.isMatch mode (window.register host offset) = true := by
  unfold found?
  constructor
  · intro listed
    split at listed
    · rename_i matched
      exact ⟨(Option.some.inj listed).symm, matched⟩
    · cases listed
  · rintro ⟨rfl, matched⟩
    exact if_pos matched

/-- What is found at some of the places. -/
theorem filter_found (offsets : List Nat) (keep : Nat → Bool) :
    (offsets.filterMap (window.found? host target mode)).filter (fun found => keep found.offset) =
      (offsets.filter keep).filterMap (window.found? host target mode) := by
  rw [List.filter_filterMap, List.filterMap_filter]
  congr 1
  funext offset
  unfold found?
  split
  · rfl
  · cases keep offset <;> rfl

/-- A slot is looked at once. -/
theorem found_at_slot {offset : Nat} (slot : offset ∈ window.slots) :
    (window.slots.filterMap (window.found? host target mode)).filter
        (fun found => found.offset = offset) =
      (window.found? host target mode offset).toList := by
  have once : window.slots.filter (fun other => other = offset) = [offset] := by
    have counted : window.slots.count offset = 1 :=
      List.count_eq_one_of_mem window.nodup_slots slot
    rw [List.filter_eq, counted]
    rfl
  rw [filter_found window.slots fun other => other = offset, once]
  cases found : window.found? host target mode offset <;> simp [found]

/-- Matches are found in the order of their places. -/
theorem ascending_found {offsets : List Nat} (ascending : offsets.Pairwise (· < ·)) :
    (offsets.filterMap (window.found? host target mode)).Pairwise (·.offset < ·.offset) := by
  apply ascending.filterMap
  intro offset later before found here other there
  rw [(found?_eq_some.1 here).1, (found?_eq_some.1 there).1]
  exact before

/-- Matches that must be enabled are those among all matches that are. -/
theorem filter_enabled (offsets : List Nat) :
    (offsets.filterMap (window.found? host target .any)).filter (fun found => found.value.Enabled) =
      offsets.filterMap (window.found? host target .enabled) := by
  rw [List.filter_filterMap]
  apply List.filterMap_congr
  intro offset _
  apply Option.ext
  intro found
  rw [Option.filter_eq_some_iff, found?_eq_some, found?_eq_some, ScanTarget.isMatch_iff,
    ScanTarget.isMatch_iff, decide_eq_true_iff]
  constructor
  · rintro ⟨⟨rfl, counts, -⟩, enabled⟩
    exact ⟨rfl, counts, Or.inr enabled⟩
  · rintro ⟨rfl, counts, enabled⟩
    exact ⟨⟨rfl, counts, Or.inl rfl⟩, enabled.resolve_left (by decide)⟩

/-- The eight bytes at `offset` are those of `value`, the lowest first. -/
def Shows (window : Window) (host : Host) (offset : Nat) (value : Word) : Prop :=
  ∀ index < 8,
    (host.contents window.memory).byte (window.base.toNat + offset + index) = value.byteAt index

theorem shows_iff {offset : Nat} {value : Word} :
    window.Shows host offset value ↔ window.register host offset = value := by
  unfold Shows register
  constructor
  · intro bytes
    rw [← Word.ofBytes_byteAt value]
    apply Word.ofBytes_congr
    intro index inside
    rw [bytes index inside, Nat.zero_add]
  · rintro rfl index inside
    exact (Word.byteAt_ofBytes _ _ inside).symm

theorem mem_found_iff {offset : Nat} {value : Word} :
    ⟨offset, value⟩ ∈ window.slots.filterMap (window.found? host target mode) ↔
      (offset % 8 = 0 ∧ offset + 8 ≤ window.size) ∧ window.Shows host offset value ∧
        target.isMatch mode value = true := by
  rw [List.mem_filterMap, shows_iff, ← mem_slots]
  constructor
  · rintro ⟨place, slot, listed⟩
    obtain ⟨same, matched⟩ := found?_eq_some.1 listed
    injection same with here held
    subst here held
    exact ⟨slot, rfl, matched⟩
  · rintro ⟨slot, rfl, matched⟩
    exact ⟨offset, slot, found?_eq_some.2 ⟨rfl, matched⟩⟩

/-- A scan of a window never fails. It lists, in ascending order, exactly the whole slots whose
bytes hold both counts and, where that is asked for, both enable bits. Asking for them keeps
those of all matches that have them. -/
theorem scan_lists_matches (window : Window) (host : Host) (target : ScanTarget) :
    (∀ mode, ∃ found, window.scan host target mode = .ok found ∧
      found.Pairwise (·.offset < ·.offset) ∧
      ∀ offset value, ⟨offset, value⟩ ∈ found ↔
        offset % 8 = 0 ∧ offset + 8 ≤ window.size ∧ window.Shows host offset value ∧
          (value.extractLsb' 0 15).toNat = target.first.count ∧
          (value.extractLsb' 32 15).toNat = target.second.count ∧
          (mode = .enabled → value.getLsbD 15 = true ∧ value.getLsbD 47 = true)) ∧
    ∃ all, window.scan host target .any = .ok all ∧
      window.scan host target .enabled =
        .ok (all.filter fun found => found.value.getLsbD 15 && found.value.getLsbD 47) := by
  constructor
  · intro mode
    refine ⟨_, scan_eq window host target mode, ascending_found window.ascending_slots, ?_⟩
    intro offset value
    rw [mem_found_iff, ScanTarget.isMatch_iff, Word.limitCounts, Prod.mk.injEq]
    have asked : (mode = .any ∨ value.Enabled) ↔ (mode = .enabled → value.Enabled) := by
      cases mode <;> simp
    rw [asked, Word.Enabled]
    simp only [and_assoc]
  · refine ⟨_, scan_eq window host target .any, ?_⟩
    rw [scan_eq, ← filter_enabled]
    congr 2
    funext found
    simp [Word.Enabled]

/-! ## A scan by a process -/

/-- A slot that memory lacks ends the process. -/
theorem survey_of_lacks {offset : Nat} (slot : offset % 8 = 0) (lacks : window.Lacks host offset) :
    window.survey host target mode = .error .noPage := by
  have reached : (List.range (window.size / scanStride)).any
      (fun slot => window.lacks host (slot * scanStride)) = true := by
    obtain ⟨number, below, rfl⟩ := List.mem_map.1 (mem_slots.2 ⟨slot, lacks.2.1⟩)
    exact List.any_eq_true.2 ⟨number, below, lacks_iff.2 lacks⟩
  unfold survey
  rw [if_pos reached]

theorem survey_of_reaches (reaches : ∀ offset, offset % 8 = 0 → ¬ window.Lacks host offset) :
    window.survey host target mode = window.scan host target mode := by
  have none : ¬ (List.range (window.size / scanStride)).any
      (fun slot => window.lacks host (slot * scanStride)) = true := by
    rw [List.any_eq_true]
    rintro ⟨number, _, lacks⟩
    exact reaches _ (Nat.mul_mod_left number 8) (lacks_iff.1 lacks)
  unfold survey
  rw [if_neg none]

/-! ## A store between two scans -/

/-- A store to a slot leaves what is found at the others. -/
theorem found_elsewhere {offset : Nat} {value : Word} (slot : offset ∈ window.slots) :
    (window.slots.filterMap (window.found? (window.stored host offset value) target mode)).filter
        (fun found => found.offset ≠ offset) =
      (window.slots.filterMap (window.found? host target mode)).filter
        (fun found => found.offset ≠ offset) := by
  rw [filter_found window.slots fun other => other ≠ offset,
    filter_found window.slots fun other => other ≠ offset]
  apply List.filterMap_congr
  intro other member
  obtain ⟨there, differs⟩ := List.mem_filter.1 member
  have apart : other + 8 ≤ offset ∨ offset + 8 ≤ other := by
    have := mem_slots.1 slot
    have := mem_slots.1 there
    have := of_decide_eq_true differs
    omega
  unfold found?
  rw [register_stored_apart apart]

end Window
end PackagePower
