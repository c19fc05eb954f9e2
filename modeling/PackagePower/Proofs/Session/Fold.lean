import PackagePower.Proofs.Device.Bench
import PackagePower.Proofs.Device.Zone
import PackagePower.Proofs.Session.Settle

/-!
# Confirming is a fold

Put to the operator one by one, the writes of a queue come to what each of them comes to by itself,
in the world that those before it left. The phase ends where the queue does, or at the first write
that is approved and fails: what landed before it stays, and what is queued behind it is neither
asked about nor attempted.
-/

namespace PackagePower.Session

variable {ω : Type} (operator : Operator ω)

/-! ## What lands on a bench -/

/-- The word that landed last in a register. -/
def lastWord? (copy : RegisterCopy) (entries : List Settled) : Option Word :=
  (entries.filterMap (Settled.word? copy)).getLast?

/-- The constraints that landed last in the power zone. -/
def lastLimits? (entries : List Settled) : Option ZoneLimits :=
  (entries.filterMap Settled.limits?).getLast?

/-- The zone reads as written last, or as it did. -/
def ZoneReads (zone : Zone) (before after : Host) : Option ZoneLimits → Prop
  | none => ∀ index, zone.readConstraint after index = zone.readConstraint before index
  | some limits => zone.read after = .ok limits

theorem ZoneReads.trans {zone : Zone} {before middle after : Host}
    {first second : Option ZoneLimits} (left : ZoneReads zone before middle first)
    (later : ZoneReads zone middle after second) : ZoneReads zone before after (second.or first) := by
  cases second with
  | some limits => exact later
  | none =>
    cases first with
    | some limits => exact (Zone.read_congr later).trans left
    | none => exact fun index => (later index).trans (left index)

/-- What entries leave on a bench: in each register the word that landed last, in the zone the
constraints, and what none of them is about as it was. -/
structure Leaves (entries : List Settled) (before after : Bench) : Prop where
  value : ∀ copy, after.value copy =
    (lastWord? copy entries).elim (before.value copy) (before.cell copy).settled
  stuck : ∀ copy, after.stuck copy = before.stuck copy
  zone : after.zone = before.zone
  reading : ZoneReads before.zone before.host after.host (lastLimits? entries)
  cell : ∀ copy, (∀ current next, .register copy current next ∉ entries.map Settled.pending) →
    after.cell copy = before.cell copy
  host : (∀ limits, .zone limits ∉ entries.map Settled.pending) → after.host = before.host

theorem Leaves.refl (bench : Bench) : Leaves [] bench bench :=
  ⟨fun _ => rfl, fun _ => rfl, rfl, fun _ => rfl, fun _ _ => rfl, fun _ => rfl⟩

/-- What a later write leaves does not depend on the words that landed before. -/
theorem Leaves.settled {entries : List Settled} {before after : Bench}
    (left : Leaves entries before after) (copy : RegisterCopy) :
    (after.cell copy).settled = (before.cell copy).settled := by
  have stuck : (after.cell copy).stuck = (before.cell copy).stuck := left.stuck copy
  have value : (after.cell copy).value = _ := left.value copy
  funext next
  apply BitVec.eq_of_getLsbD_eq
  intro i _
  rw [Cell.getLsbD_settled, Cell.getLsbD_settled, stuck, value]
  cases lastWord? copy entries with
  | none => rfl
  | some word =>
    rw [Option.elim_some, Cell.getLsbD_settled]
    split <;> rfl

theorem Leaves.append {first second : List Settled} {before middle after : Bench}
    (left : Leaves first before middle) (later : Leaves second middle after) :
    Leaves (first ++ second) before after where
  value copy := by
    have last : lastWord? copy (first ++ second) =
        (lastWord? copy second).or (lastWord? copy first) := by
      unfold lastWord?
      rw [List.filterMap_append, List.getLast?_append]
    rw [last, later.value, left.settled]
    cases lastWord? copy second with
    | none => exact left.value copy
    | some word => rfl
  stuck copy := (later.stuck copy).trans (left.stuck copy)
  zone := later.zone.trans left.zone
  reading := by
    have last : lastLimits? (first ++ second) =
        (lastLimits? second).or (lastLimits? first) := by
      unfold lastLimits?
      rw [List.filterMap_append, List.getLast?_append]
    rw [last]
    exact left.reading.trans (left.zone ▸ later.reading)
  cell copy apart := by
    simp only [List.map_append, List.mem_append, not_or] at apart
    exact (later.cell copy fun current next => (apart current next).2).trans
      (left.cell copy fun current next => (apart current next).1)
  host apart := by
    simp only [List.map_append, List.mem_append, not_or] at apart
    exact (later.host fun limits => (apart limits).2).trans
      (left.host fun limits => (apart limits).1)

section
variable {settled : Settled} (unlanded : settled.reply? ≠ some (.ok ()))
include unlanded

theorem lastWord?_unlanded (copy : RegisterCopy) : lastWord? copy [settled] = none := by
  unfold lastWord?
  rw [List.filterMap_cons_none, List.filterMap_nil, List.getLast?_nil]
  unfold Settled.word?
  split
  · rename_i landed
    exact (unlanded landed).elim
  · rfl

theorem lastLimits?_unlanded : lastLimits? [settled] = none := by
  unfold lastLimits?
  rw [List.filterMap_cons_none, List.filterMap_nil, List.getLast?_nil]
  unfold Settled.limits?
  split
  · rename_i landed
    exact (unlanded landed).elim
  · rfl

end

theorem refused_leaves (pending : PendingWrite) (bench : Bench) :
    Leaves [⟨pending, none⟩] bench bench := by
  have unlanded : (⟨pending, none⟩ : Settled).reply? ≠ some (.ok ()) := nofun
  refine ⟨?_, fun _ => rfl, rfl, ?_, fun _ _ => rfl, fun _ => rfl⟩
  · intro copy
    rw [lastWord?_unlanded unlanded, Option.elim_none]
  · rw [lastLimits?_unlanded unlanded]
    exact fun _ => rfl

theorem write_leaves (copy : RegisterCopy) (current next : Word) (bench : Bench) :
    Leaves [⟨.register copy current next, some (Bench.station.write copy next bench).1⟩] bench
      (Bench.station.write copy next bench).2 := by
  have cell (other : RegisterCopy) (apart : ∀ found word,
      .register other found word ∉ [PendingWrite.register copy current next]) :
      (Bench.station.write copy next bench).2.cell other = bench.cell other := by
    apply Bench.cell_withCell_other
    rintro rfl
    exact apart current next (List.mem_singleton.2 rfl)
  have beside : (Bench.station.write copy next bench).2.zone = bench.zone ∧
      (Bench.station.write copy next bench).2.host = bench.host := by
    cases copy <;> exact ⟨rfl, rfl⟩
  cases replied : (Bench.station.write copy next bench).1 with
  | ok =>
    have takes := Bench.write_takes replied
    refine ⟨?_, takes.stuck, beside.1, ?_, cell, fun _ => beside.2⟩
    · intro other
      by_cases same : copy = other
      · subst same
        have word : lastWord? copy [⟨.register copy current next, some (.ok ())⟩] = some next := by
          simp [lastWord?, Settled.word?]
        rw [word]
        exact takes.value
      · have none : lastWord? other [⟨.register copy current next, some (.ok ())⟩] = none := by
          simp [lastWord?, Settled.word?, same]
        rw [none]
        exact takes.other other (Ne.symm same)
    · rw [beside.2]
      exact fun _ => rfl
  | error fault =>
    have keeps := Bench.write_keeps replied
    refine ⟨?_, keeps.stuck, beside.1, ?_, cell, fun _ => beside.2⟩
    · exact keeps.value
    · rw [beside.2]
      exact fun _ => rfl

theorem writeZone_leaves (limits : ZoneLimits) (bench : Bench) :
    Leaves [⟨.zone limits, some (Bench.station.writeZone limits bench).1⟩] bench
      (Bench.station.writeZone limits bench).2 := by
  have wrote := Zone.write_wrote bench.zone bench.host limits
  refine ⟨?_, fun _ => rfl, rfl, ?_, fun _ _ => rfl, ?_⟩
  · intro copy
    rfl
  · change ZoneReads bench.zone bench.host (bench.zone.write bench.host limits).2
      (lastLimits? [⟨.zone limits, some (bench.zone.write bench.host limits).1⟩])
    cases replied : (bench.zone.write bench.host limits).1 with
    | ok => exact wrote.read_eq replied
    | error fault => exact (wrote.undoes replied).1
  · intro apart
    exact (apart limits (List.mem_singleton.2 rfl)).elim

theorem settle_leaves (pending : PendingWrite) (own : ω) (bench : Bench) :
    Leaves [(settle (operator.at Bench.station) pending (own, bench)).1] bench
      (settle (operator.at Bench.station) pending (own, bench)).2.2 := by
  rcases settle_cases (operator.at Bench.station) (own, bench) pending with
    ⟨middle, answered, settled⟩ | ⟨middle, answered, settled⟩
  all_goals
    have same : middle.2 = bench := congrArg (fun answer => answer.2.2) answered.symm
    obtain ⟨own, bench⟩ := middle
    cases same
    rw [settled]
  · exact refused_leaves pending bench
  · cases pending with
    | register copy current next => exact write_leaves copy current next _
    | zone limits => exact writeZone_leaves limits _

theorem settleAll_leaves (queue : List PendingWrite) (world : ω × Bench) :
    Leaves (settleAll (operator.at Bench.station) queue world).1 world.2
      (settleAll (operator.at Bench.station) queue world).2.2 := by
  induction queue generalizing world with
  | nil => exact .refl _
  | cons pending rest ih =>
    exact (settle_leaves operator pending world.1 world.2).append (ih _)

theorem complaints_nil {entries : List Settled}
    (landed : ∀ entry ∈ entries, entry.failed = false) : entries.flatMap Settled.complaint = [] := by
  rw [List.flatMap_eq_nil_iff]
  intro entry member
  have landed := landed entry member
  unfold Settled.failed at landed
  unfold Settled.complaint
  split
  · rename_i fault replied
    rw [replied] at landed
    cases landed
  · rfl

/-- The entries that are reached are those before the first that fails, and that one, which leaves
all values as they were. -/
theorem reached_cases {queue : List PendingWrite} {world : ω × Bench} {last : Nat}
    (found : firstFailed (operator.at Bench.station) queue world = last) :
    (last = queue.length ∧ settleAll (operator.at Bench.station) (queue.take (last + 1)) world =
        settleAll (operator.at Bench.station) (queue.take last) world) ∨
      ∃ pending fault, queue[last]? = some pending ∧
        (settleAll (operator.at Bench.station) (queue.take (last + 1)) world).1 =
          (settleAll (operator.at Bench.station) (queue.take last) world).1 ++
            [⟨pending, some (.error fault)⟩] ∧
        Leaves [⟨pending, some (.error fault)⟩]
          (settleAll (operator.at Bench.station) (queue.take last) world).2.2
          (settleAll (operator.at Bench.station) (queue.take (last + 1)) world).2.2 := by
  rcases Nat.lt_or_ge last queue.length with inside | outside
  · have next : queue[last]? = some queue[last] := List.getElem?_eq_getElem inside
    obtain ⟨fault, fails⟩ := settle_failed _ world found next
    have left := settle_leaves operator queue[last]
      (settleAll (operator.at Bench.station) (queue.take last) world).2.1
      (settleAll (operator.at Bench.station) (queue.take last) world).2.2
    refine .inr ⟨queue[last], fault, next, ?_, ?_⟩
    · rw [settleAll_take_succ _ world next, fails]
    · rw [settleAll_take_succ _ world next, ← fails]
      exact left
  · refine .inl ⟨Nat.le_antisymm (found ▸ firstFailed_le _ world queue) outside, ?_⟩
    rw [List.take_of_length_le outside, List.take_of_length_le (Nat.le_succ_of_le outside)]

/-- Confirming a queue is a fold over the entries up to the first that is approved and fails. -/
theorem confirmation_is_a_fold (panel : Panel) (queue : List PendingWrite) (own : ω)
    (bench : Bench) :
    let handler := operator.at Bench.station
    let last := firstFailed handler queue (own, bench)
    let before := settleAll handler (queue.take last) (own, bench)
    let reached := settleAll handler (queue.take (last + 1)) (own, bench)
    last ≤ queue.length ∧ (∀ entry ∈ before.1, entry.failed = false) ∧
      ∃ after, (steps panel (last + 1) (.confirm queue)).run handler { world := (own, bench) } =
          (some .idle, after) ∧
        after.world = (queue.take (last + 1)).foldl
          (fun world pending => (settle handler pending world).2) (own, bench) ∧
        -- Each entry that is reached is asked about once, and attempted once if approved.
        reached.1.map Settled.pending = queue.take (last + 1) ∧
        after.history.filterMap Event.answer? = reached.1.map Settled.answer ∧
        after.history.filterMap Event.reply? = reached.1.filterMap Settled.attempt? ∧
        -- What landed stays, and what failed changes no value.
        Leaves reached.1 bench after.world.2 ∧
        (∀ copy, after.world.2.value copy = before.2.2.value copy) ∧
        (∀ index, bench.zone.readConstraint after.world.2.host index =
          bench.zone.readConstraint before.2.2.host index) ∧
        ((last = queue.length ∧ reached.1 = before.1 ∧ after.err.kept = []) ∨
          ∃ pending fault, queue[last]? = some pending ∧
            reached.1 = before.1 ++ [⟨pending, some (.error fault)⟩] ∧
            after.err.kept = Sink.bytes (s!"error: {fault.message}" ++ "\n")) := by
  intro handler last before reached
  have landed := not_failed_before handler (own, bench) (rfl : firstFailed handler queue _ = last)
  obtain ⟨events, trace, told, replays⟩ :=
    steps_trace operator Bench.station panel queue (own, bench) (rfl : _ = last)
  obtain ⟨after, finished, history, world, kept⟩ := Program.run_fresh trace replays
  have world : after.world = reached.2 := world
  have printed : after.err.kept = reached.1.flatMap Settled.complaint :=
    (kept .err).trans told.complaints
  have zone : before.2.2.zone = bench.zone := (settleAll_leaves operator _ (own, bench)).zone
  refine ⟨firstFailed_le _ _ _, landed, after, finished, ?_, settleAll_pending _ _ _, ?_, ?_, ?_, ?_⟩
  · exact world.trans (settleAll_world _ _ _)
  · rw [history, told.answers]
  · rw [history, told.attempts]
  · rw [world]
    exact settleAll_leaves operator _ (own, bench)
  rw [world, printed]
  rcases reached_cases operator (rfl : firstFailed handler queue (own, bench) = last) with
    ⟨whole, same⟩ | ⟨pending, fault, next, split, left⟩
  · have same : reached = before := same
    rw [same]
    exact ⟨fun _ => rfl, fun _ => rfl, .inl ⟨whole, rfl, complaints_nil landed⟩⟩
  · have split : reached.1 = _ := split
    have unlanded : (⟨pending, some (.error fault)⟩ : Settled).reply? ≠ some (.ok ()) := nofun
    refine ⟨?_, ?_, .inr ⟨pending, fault, next, split, ?_⟩⟩
    · intro copy
      have value := left.value copy
      rwa [lastWord?_unlanded unlanded] at value
    · have reading := left.reading
      rw [lastLimits?_unlanded unlanded] at reading
      rw [← zone]
      exact reading
    · rw [split, List.flatMap_append, complaints_nil landed, List.nil_append]
      exact List.append_nil _

end PackagePower.Session
