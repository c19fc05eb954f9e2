import PackagePower.Proofs.Device.Bench
import PackagePower.Proofs.Session.Course
import PackagePower.Proofs.Session.Watts

/-!
# Queues are never stale

While a queue is decided, write by write, each register that it is still about holds what was
read from it, whatever became of the writes before: a queue is about different registers, and a
decision reaches only its own. So what is computed once stays right until it is written.

`Held` is the invariant. It says where the queue came from, as new limits and copied ones are
right for different reasons.
-/

namespace PackagePower

/-- The copy that a write is for; none for the power zone. -/
def PendingWrite.copy? : PendingWrite → Option RegisterCopy
  | .register copy _ _ => some copy
  | .zone _ => none

/-- The copy beside. -/
def RegisterCopy.other : RegisterCopy → RegisterCopy
  | .msr => .mmio
  | .mmio => .msr

namespace Session
open Bench (Keeps Takes)

/-- Two answers in a row gave the watts of two limits. -/
def Entered (history : List Event) (watts₁ watts₂ : Binary64) : Prop :=
  ∃ line₁ line₂, Typed line₁ watts₁ ∧ Typed line₂ watts₂ ∧
    [.performed (.ask "PL1 watts (q to cancel): ") (some line₁),
      .performed (.ask "PL2 watts (q to cancel): ") (some line₂)] <:+: history

theorem Entered.append {history : List Event} {watts₁ watts₂ : Binary64}
    (entered : Entered history watts₁ watts₂) (later : List Event) :
    Entered (history ++ later) watts₁ watts₂ := by
  obtain ⟨line₁, line₂, typed₁, typed₂, asked⟩ := entered
  exact ⟨line₁, line₂, typed₁, typed₂, asked.trans (List.prefix_append _ _).isInfix⟩

/-- The units of two limits that were entered in watts. -/
def Chosen (unit : PowerUnit) (history : List Event) (first second : LimitUnits) : Prop :=
  ∃ watts₁ watts₂, Entered history watts₁ watts₂ ∧ unit.limitUnits watts₁ = .ok first ∧
    unit.limitUnits watts₂ = .ok second

theorem Chosen.append {unit : PowerUnit} {history : List Event} {first second : LimitUnits}
    (chosen : Chosen unit history first second) (later : List Event) :
    Chosen unit (history ++ later) first second := by
  obtain ⟨watts₁, watts₂, entered, units⟩ := chosen
  exact ⟨watts₁, watts₂, entered.append later, units⟩

/-- The writes of a queue of new limits, by what they are for. -/
def limitShape (target : WriteTarget) : List (Option RegisterCopy) :=
  (copies target).map some ++ [none]

/-- A queue of new limits, or what is left of one. -/
structure Proposed (bench : Bench) (first second : LimitUnits) (queue : List PendingWrite) :
    Prop where
  shape : ∃ target, queue.map PendingWrite.copy? <:+ limitShape target
  register : ∀ copy current next, .register copy current next ∈ queue →
    current = bench.value copy ∧ next = current.withLimits first second
  zone : ∀ limits, .zone limits ∈ queue → limits.first ≠ 0 ∧ limits.second ≠ 0

/-- A queue that makes one copy like the other, or what is left of one. -/
structure Synced (bench : Bench) (queue : List PendingWrite) : Prop where
  shape : ∃ copy, queue.map PendingWrite.copy? <:+ [some copy]
  register : ∀ copy current next, .register copy current next ∈ queue →
    current = bench.value copy ∧ next = bench.value copy.other

/-- The invariant: a queue is right for the bench, and for where it came from. -/
inductive Held (unit : PowerUnit) (history : List Event) (bench : Bench) :
    SessionState → List PendingWrite → Prop where
  | set {first second : LimitUnits} {queue : List PendingWrite} :
      Chosen unit history first second → Proposed bench first second queue →
      Held unit history bench .setLimits queue
  | sync {queue : List PendingWrite} : Synced bench queue →
      Held unit history bench .syncLimits queue

/-! ## New queues -/

theorem proposed_held {panel : Panel} {target : WriteTarget} {watts₁ watts₂ : Binary64}
    {events : List Event} {queue : List PendingWrite} {bench : Bench}
    (read : ∀ reading, readingOf reading ∈ events → reading.2 = bench.value reading.1)
    (trace : (propose panel target watts₁ watts₂).Succeeds events (.confirm queue)) :
    ∃ first second, panel.unit.limitUnits watts₁ = .ok first ∧
      panel.unit.limitUnits watts₂ = .ok second ∧ Proposed bench first second queue := by
  obtain ⟨first, second, zone, readings, firstUnits, secondUnits, copied, firstZone, secondZone,
    same, rfl⟩ := propose_succeeds trace
  cases same
  refine ⟨first, second, firstUnits, secondUnits, ⟨target, ?_⟩, ?_, ?_⟩
  · have shape : readings.map (fun reading => (limited first second reading).copy?) =
        (copies target).map some := by
      rw [← copied, List.map_map]
      rfl
    rw [List.map_append, List.map_map]
    exact (congrArg (· ++ [none]) shape).symm ▸ List.suffix_rfl
  · intro copy current next member
    rcases List.mem_append.1 member with member | member
    · obtain ⟨reading, found, same⟩ := List.mem_map.1 member
      cases same
      refine ⟨read reading ?_, rfl⟩
      exact List.mem_append_left _ (List.mem_map_of_mem found)
    · cases List.mem_singleton.1 member
  · intro limits member
    rcases List.mem_append.1 member with member | member
    · obtain ⟨reading, _, same⟩ := List.mem_map.1 member
      cases same
    · cases List.mem_singleton.1 member
      exact ⟨ne_zero_of_microwatts firstZone, ne_zero_of_microwatts secondZone⟩

theorem setLimits_held {panel : Panel} {history events : List Event} {queue : List PendingWrite}
    {bench : Bench}
    (read : ∀ reading, readingOf reading ∈ events → reading.2 = bench.value reading.1)
    (trace : (setLimits panel).Succeeds events (.confirm queue)) :
    Held panel.unit (history ++ events) bench .setLimits queue := by
  obtain ⟨line₁, line₂, watts₁, watts₂, target, before, after, typed₁, typed₂, found, rfl⟩ :=
    setLimits_confirm trace
  have later reading (member : readingOf reading ∈ after) : reading.2 = bench.value reading.1 :=
    read reading (by simp [member])
  obtain ⟨first, second, units₁, units₂, proposed⟩ := proposed_held later found
  refine .set ⟨watts₁, watts₂, ⟨line₁, line₂, typed₁, typed₂, ?_⟩, units₁, units₂⟩ proposed
  exact ⟨history, before ++ after, by simp⟩

theorem syncLimits_held {unit : PowerUnit} {history events : List Event}
    {queue : List PendingWrite} {bench : Bench}
    (read : ∀ reading, readingOf reading ∈ events → reading.2 = bench.value reading.1)
    (trace : syncLimits.Succeeds events (.confirm queue)) :
    Held unit history bench .syncLimits queue := by
  obtain ⟨direction, before, value, current, rfl, rfl⟩ := syncLimits_confirm trace
  refine .sync ⟨⟨_, List.suffix_rfl⟩, ?_⟩
  intro copy found next member
  cases List.mem_singleton.1 member
  have source : value = bench.value (ends direction).1 := read (_, value) (by simp)
  have target : current = bench.value (ends direction).2 := read (_, current) (by simp)
  have beside : (ends direction).2.other = (ends direction).1 := by
    cases direction <;> rfl
  exact ⟨target, source.trans (congrArg bench.value beside.symm)⟩

/-! ## Decisions -/

theorem limitShape_nodup (target : WriteTarget) : (limitShape target).Nodup := by
  cases target <;> decide

theorem Proposed.tail {before after : Bench} {first second : LimitUnits} {pending : PendingWrite}
    {rest : List PendingWrite} (proposed : Proposed before first second (pending :: rest))
    (others : ∀ copy, pending.copy? ≠ some copy → after.value copy = before.value copy) :
    Proposed after first second rest := by
  obtain ⟨target, shape⟩ := proposed.shape
  have distinct := (limitShape_nodup target).sublist shape.sublist
  refine ⟨⟨target, (List.suffix_cons _ _).trans shape⟩, ?_, ?_⟩
  · intro copy current next member
    have apart : pending.copy? ≠ some copy := by
      intro same
      apply (List.nodup_cons.1 distinct).1
      rw [same]
      exact List.mem_map_of_mem member
    obtain ⟨held, limits⟩ := proposed.register copy current next (List.mem_cons_of_mem _ member)
    exact ⟨held.trans (others copy apart).symm, limits⟩
  · intro limits member
    exact proposed.zone limits (List.mem_cons_of_mem _ member)

theorem Synced.tail {before after : Bench} {pending : PendingWrite} {rest : List PendingWrite}
    (synced : Synced before (pending :: rest)) : Synced after rest := by
  obtain ⟨copy, shape⟩ := synced.shape
  have short := shape.length_le
  cases rest with
  | nil => exact ⟨⟨copy, List.nil_suffix⟩, fun _ _ _ => nofun⟩
  | cons next rest =>
    simp only [List.map_cons, List.length_cons, List.length_nil] at short
    omega

theorem decided_others {ω : Type} {operator : Operator ω} {world last : ω × Bench}
    {pending : PendingWrite} {events : List Event} (decided : Decided pending events)
    (replays : (operator.at Bench.station).Replays world events last) (copy : RegisterCopy)
    (apart : pending.copy? ≠ some copy) : last.2.value copy = world.2.value copy := by
  rcases replays_decided decided replays with keeps | ⟨written, _, _, _, rfl, _, takes⟩
  · exact keeps.value copy
  · refine takes.other copy ?_
    rintro rfl
    exact apart rfl

theorem Held.tail {unit : PowerUnit} {history events : List Event} {before after : Bench}
    {source : SessionState} {pending : PendingWrite} {rest : List PendingWrite}
    (held : Held unit history before source (pending :: rest))
    (others : ∀ copy, pending.copy? ≠ some copy → after.value copy = before.value copy) :
    Held unit (history ++ events) after source rest := by
  cases held with
  | set chosen proposed => exact .set (chosen.append events) (proposed.tail others)
  | sync synced => exact .sync synced.tail

/-! ## Sessions -/

section
variable {σ : Type} (panel : Panel) (handler : Handler σ) (start : Run σ)

/-- After `count` steps the session has been at one queue since it was in state `source`. -/
def QueuedBy (source : SessionState) (count : Nat) : Prop :=
  ∃ begun < count, (course panel handler start begun).1 = some source ∧
    ∀ later, begun < later → later ≤ count →
      ∃ queue, (course panel handler start later).1 = some (.confirm queue)

theorem QueuedBy.first {source : SessionState} {count : Nat} {queue : List PendingWrite}
    (before : (course panel handler start count).1 = some source)
    (after : (course panel handler start (count + 1)).1 = some (.confirm queue)) :
    QueuedBy panel handler start source (count + 1) := by
  refine ⟨count, Nat.lt_succ_self count, before, ?_⟩
  intro later above below
  cases Nat.le_antisymm below above
  exact ⟨queue, after⟩

variable {panel handler start}

theorem QueuedBy.next {source : SessionState} {count : Nat} {queue : List PendingWrite}
    (queued : QueuedBy panel handler start source count)
    (after : (course panel handler start (count + 1)).1 = some (.confirm queue)) :
    QueuedBy panel handler start source (count + 1) := by
  obtain ⟨begun, below, before, since⟩ := queued
  refine ⟨begun, Nat.lt_succ_of_lt below, before, ?_⟩
  intro later above within
  rcases Nat.lt_or_eq_of_le within with earlier | rfl
  · exact since later above (Nat.le_of_lt_succ earlier)
  · exact ⟨queue, after⟩

/-- A queue comes from one state. -/
theorem QueuedBy.unique {source other : SessionState} {count : Nat}
    (queued : QueuedBy panel handler start source count)
    (also : QueuedBy panel handler start other count) (elsewhere : ∀ queue, source ≠ .confirm queue)
    (elsewhere' : ∀ queue, other ≠ .confirm queue) : source = other := by
  obtain ⟨begun, below, before, since⟩ := queued
  obtain ⟨begun', below', before', since'⟩ := also
  rcases Nat.lt_trichotomy begun begun' with earlier | rfl | later
  · obtain ⟨queue, same⟩ := since begun' earlier (Nat.le_of_lt below')
    rw [before'] at same
    exact (elsewhere' queue (Option.some.inj same)).elim
  · rw [before] at before'
    exact Option.some.inj before'
  · obtain ⟨queue, same⟩ := since' begun later (Nat.le_of_lt below)
    rw [before] at same
    exact (elsewhere queue (Option.some.inj same)).elim

end

variable {ω : Type} (panel : Panel) (operator : Operator ω) (start : Run (ω × Bench))

/-- A queue in hand came from one state and is still right. -/
theorem course_held {count : Nat} {queue : List PendingWrite} {run : Run (ω × Bench)}
    (reached : course panel (operator.at Bench.station) start count =
      (some (.confirm queue), run)) :
    ∃ source, QueuedBy panel (operator.at Bench.station) start source count ∧
      Held panel.unit run.history run.world.2 source queue := by
  induction count generalizing queue run with
  | zero => cases reached
  | succ count ih =>
    rcases before : course panel (operator.at Bench.station) start count with ⟨_ | state, middle⟩
    · rw [course_ended _ _ _ before] at reached
      cases reached
    · obtain ⟨events, trace, history, replays⟩ := course_step _ _ _ before
      have after := congrArg Prod.fst reached
      rw [reached] at trace history replays
      rw [history]
      have here : (course panel (operator.at Bench.station) start count).1 = some state := by
        rw [before]
      rcases step_queue trace with ⟨rfl, entered⟩ | ⟨rfl, copied⟩ | ⟨pending, rfl⟩
      · have read := (replays_quiet (step_quiet (by simp) trace) replays).2
        exact ⟨.setLimits, .first _ _ _ here after, setLimits_held read entered⟩
      · have read := (replays_quiet (step_quiet (by simp) trace) replays).2
        exact ⟨.syncLimits, .first _ _ _ here after, syncLimits_held read copied⟩
      · obtain ⟨source, queued, held⟩ := ih before
        exact ⟨source, queued.next after, held.tail (decided_others (step_confirm trace) replays)⟩

/-- The bench after `count` steps. -/
def benchAfter (count : Nat) : Bench :=
  (course panel (operator.at Bench.station) start count).2.world.2

/-- What the writes of a queue can be for. Of a queue in hand some last ones are left. -/
def shapes : List (List (Option RegisterCopy)) :=
  [[some .msr, none], [some .mmio, none], [some .msr, some .mmio, none], [some .msr], [some .mmio]]

theorem limitShape_mem (target : WriteTarget) : limitShape target ∈ shapes := by
  cases target <;> decide

theorem singleton_mem_shapes (copy : RegisterCopy) : [some copy] ∈ shapes := by
  cases copy <;> decide

/-- Queues are never stale or malformed. -/
theorem queues_are_fresh {count : Nat} {queue : List PendingWrite}
    (reached : (course panel (operator.at Bench.station) start count).1 = some (.confirm queue)) :
    (∃ shape ∈ shapes, queue.map PendingWrite.copy? <:+ shape) ∧
      (∀ copy current next, .register copy current next ∈ queue →
        current = (benchAfter panel operator start count).value copy) ∧
      (QueuedBy panel (operator.at Bench.station) start .setLimits count ∨
        QueuedBy panel (operator.at Bench.station) start .syncLimits count) ∧
      (QueuedBy panel (operator.at Bench.station) start .setLimits count →
        ∃ first second : LimitUnits,
          (∀ copy current next, .register copy current next ∈ queue →
            next = current.withLimits first second) ∧
          ∀ limits, .zone limits ∈ queue → limits.first ≠ 0 ∧ limits.second ≠ 0) ∧
      (QueuedBy panel (operator.at Bench.station) start .syncLimits count →
        ∀ copy current next, .register copy current next ∈ queue →
          next = (benchAfter panel operator start count).value copy.other) := by
  obtain ⟨source, queued, held⟩ := course_held panel operator start (Prod.ext reached rfl)
  cases held with
  | @set first second _ _ proposed =>
    obtain ⟨target, shape⟩ := proposed.shape
    refine ⟨⟨_, limitShape_mem target, shape⟩, ?_, .inl queued, ?_, ?_⟩
    · intro copy current next member
      exact (proposed.register copy current next member).1
    · intro _
      refine ⟨first, second, ?_, proposed.zone⟩
      intro copy current next member
      exact (proposed.register copy current next member).2
    · intro synced
      cases queued.unique synced (by simp) (by simp)
  | sync synced =>
    obtain ⟨copy, shape⟩ := synced.shape
    refine ⟨⟨_, singleton_mem_shapes copy, shape⟩, ?_, .inr queued, ?_, ?_⟩
    · intro copy current next member
      exact (synced.register copy current next member).1
    · intro proposed
      cases queued.unique proposed (by simp) (by simp)
    · intro _ copy current next member
      exact (synced.register copy current next member).2

/-- An operator who sets both copies to 50 and 100 watts, at a bench with a stuck bit. -/
def bothLimits : Run (Script × Bench) where
  world := (⟨[some "2", some "50", some "100", some "3"], [true]⟩,
    { msr := { place := "MSR", value := 0x00428640009B8578#64, stuck := 1 }
      mmio := { place := "MMIO", value := 0x8042864000DD8578#64 }
      zone := ⟨⟨"", []⟩⟩
      host := .empty })

def plainPanel : Panel := ⟨.eighthWatt, RegisterCopy.name, "zone"⟩

/-- With the processor's copy written, two writes are left: the chipset's register is as it was
read, and the limits that go into it come from one pair. -/
theorem bothLimits_queue_is_fresh :
    (course plainPanel (Script.operator.at Bench.station) bothLimits 3).1 =
        some (.confirm [.register .mmio 0x8042864000DD8578#64 0x8042832000DD8190#64,
          .zone ⟨50000000, 100000000⟩]) ∧
      (benchAfter plainPanel Script.operator bothLimits 3).value .mmio = 0x8042864000DD8578#64 ∧
      ∃ first second : LimitUnits, (0x8042832000DD8190#64 : Word) =
        Word.withLimits 0x8042864000DD8578#64 first second := by
  have reached : (course plainPanel (Script.operator.at Bench.station) bothLimits 3).1 =
      some (.confirm [.register .mmio 0x8042864000DD8578#64 0x8042832000DD8190#64,
        .zone ⟨50000000, 100000000⟩]) := by decide +kernel
  have earlier : (course plainPanel (Script.operator.at Bench.station) bothLimits 2).1 =
      some (.confirm [.register .msr 0x00428640009B8578#64 0x00428320009B8190#64,
        .register .mmio 0x8042864000DD8578#64 0x8042832000DD8190#64,
        .zone ⟨50000000, 100000000⟩]) := by decide +kernel
  have queued : QueuedBy plainPanel (Script.operator.at Bench.station) bothLimits .setLimits 3 := by
    refine ⟨1, by decide, by decide +kernel, ?_⟩
    intro later above within
    obtain rfl | rfl : later = 2 ∨ later = 3 := by omega
    · exact ⟨_, earlier⟩
    · exact ⟨_, reached⟩
  obtain ⟨_, current, _, proposed, _⟩ :=
    queues_are_fresh plainPanel Script.operator bothLimits reached
  obtain ⟨first, second, next, _⟩ := proposed queued
  exact ⟨reached, (current _ _ _ List.mem_cons_self).symm, first, second,
    next _ _ _ List.mem_cons_self⟩

end Session
end PackagePower
