import PackagePower.Proofs.Register.PowerLimit
import PackagePower.Proofs.Session.Queue

/-!
# What a session leaves in the registers

Whatever is answered and whichever transfers fail, a session leaves the bits outside the power
fields as it found them in one of the two registers, and in the register itself as long as none
is copied to the other. Where no bit is stuck the power fields are as found, or as entered.

`register_step` says what one step does to the registers; the rest is induction over it.
-/

namespace PackagePower

namespace Session
open Bench (Keeps Takes)

variable {ω : Type} (panel : Panel) (operator : Operator ω) (start : Run (ω × Bench))

/-- A write that makes one register like the other was approved within `count` steps. -/
def Copied (count : Nat) : Prop :=
  ∃ k < count, QueuedBy panel (operator.at Bench.station) start .syncLimits k ∧
    ∃ pending tail, (course panel (operator.at Bench.station) start (k + 1)).2.history =
      (course panel (operator.at Bench.station) start k).2.history ++
        .performed (.decide pending) true :: tail

theorem Copied.succ {count : Nat} (copied : Copied panel operator start count) :
    Copied panel operator start (count + 1) := by
  obtain ⟨k, below, found⟩ := copied
  exact ⟨k, Nat.lt_succ_of_lt below, found⟩

/-- What a step writes to a register. -/
inductive Change (count : Nat) (copy : RegisterCopy) : Word → Prop where
  | limits {first second : LimitUnits} :
      Chosen panel.unit (course panel (operator.at Bench.station) start count).2.history first
        second →
      Change count copy
        (((benchAfter panel operator start count).value copy).withLimits first second)
  | copied : Copied panel operator start (count + 1) →
      Change count copy ((benchAfter panel operator start count).value copy.other)

theorem register_step (count : Nat) :
    Keeps (benchAfter panel operator start count) (benchAfter panel operator start (count + 1)) ∨
      ∃ copy word, Change panel operator start count copy word ∧
        Takes (benchAfter panel operator start count) copy word
          (benchAfter panel operator start (count + 1)) := by
  rcases before : course panel (operator.at Bench.station) start count with ⟨_ | state, run⟩
  · refine .inl ?_
    unfold benchAfter
    rw [before, course_ended _ _ _ before]
    exact .refl _
  · obtain ⟨events, trace, history, replays⟩ := course_step _ _ _ before
    have here : benchAfter panel operator start count = run.world.2 := by
      unfold benchAfter
      rw [before]
    rcases step_decides trace with ⟨pending, rest, rfl, decided⟩ | quiet
    · rcases replays_decided decided replays with
        keeps | ⟨copy, current, next, tail, rfl, rfl, takes⟩
      · exact .inl (here ▸ keeps)
      · refine .inr ⟨copy, next, ?_, here ▸ takes⟩
        obtain ⟨source, queued, held⟩ := course_held panel operator start before
        cases held with
        | set chosen proposed =>
          obtain ⟨rfl, rfl⟩ := proposed.register copy current next (by simp)
          rw [← here]
          refine .limits ?_
          rw [before]
          exact chosen
        | sync synced =>
          obtain ⟨rfl, rfl⟩ := synced.register copy current next (by simp)
          rw [← here]
          have past : (course panel (operator.at Bench.station) start count).2.history =
              run.history := by
            rw [before]
          rw [← past] at history
          exact .copied ⟨count, Nat.lt_succ_self count, queued, _, tail, history⟩
    · exact .inl (here ▸ (replays_quiet quiet replays).1)

/-- What holds of the values found, and stays when nothing or a change is written, holds of the
registers throughout. -/
theorem register_induction {P : Nat → RegisterCopy → Word → Prop}
    (found : ∀ copy, P 0 copy (start.world.2.value copy))
    (kept : ∀ count copy word, P count copy word → P (count + 1) copy word)
    (changed : ∀ count copy word, Change panel operator start count copy word →
      (∀ copy, P count copy ((benchAfter panel operator start count).value copy)) →
      P (count + 1) copy (((benchAfter panel operator start count).cell copy).settled word))
    (count : Nat) (copy : RegisterCopy) :
    P count copy ((benchAfter panel operator start count).value copy) := by
  induction count generalizing copy with
  | zero => exact found copy
  | succ count ih =>
    rcases register_step panel operator start count with keeps | ⟨target, word, change, takes⟩
    · rw [keeps.value copy]
      exact kept count copy _ (ih copy)
    · by_cases same : copy = target
      · subst same
        rw [takes.value]
        exact changed count copy word change ih
      · rw [takes.other copy same]
        exact kept count copy _ (ih copy)

theorem settled_bit (cell : Cell) (word : Word) (i : Nat) :
    (cell.settled word).getLsbD i = cell.value.getLsbD i ∨
      (cell.settled word).getLsbD i = word.getLsbD i := by
  rw [Cell.getLsbD_settled]
  split
  · exact .inl rfl
  · exact .inr rfl

/-! ## Sessions -/

/-- Not in a power field. -/
def Outside (i : Nat) : Prop := 14 < i ∧ i < 32 ∨ 46 < i

theorem bit_of_some {i : Nat} (outside : Outside i) (count : Nat) (copy : RegisterCopy) :
    ∃ origin, ((benchAfter panel operator start count).value copy).getLsbD i =
      (start.world.2.value origin).getLsbD i := by
  apply register_induction panel operator start
    (P := fun _ _ value => ∃ origin, value.getLsbD i = (start.world.2.value origin).getLsbD i)
  · intro copy
    exact ⟨copy, rfl⟩
  · intro _ _ _ before
    exact before
  · intro count copy word change before
    rcases settled_bit ((benchAfter panel operator start count).cell copy) word i with
      stays | written
    · rw [stays]
      exact before copy
    · rw [written]
      cases change with
      | limits chosen =>
        rw [Word.getLsbD_beside outside]
        exact before copy
      | copied => exact before copy.other

theorem bit_of_own {i : Nat} (outside : Outside i) (count : Nat)
    (apart : ¬ Copied panel operator start count) (copy : RegisterCopy) :
    ((benchAfter panel operator start count).value copy).getLsbD i =
      (start.world.2.value copy).getLsbD i := by
  refine register_induction panel operator start
    (P := fun count copy value => ¬ Copied panel operator start count →
      value.getLsbD i = (start.world.2.value copy).getLsbD i) ?_ ?_ ?_ count copy apart
  · intro copy _
    rfl
  · intro count copy word before apart
    exact before fun copied => apart copied.succ
  · intro count copy word change before apart
    have same := before copy fun copied => apart copied.succ
    rcases settled_bit ((benchAfter panel operator start count).cell copy) word i with
      stays | written
    · exact stays.trans same
    · rw [written]
      cases change with
      | limits chosen =>
        rw [Word.getLsbD_beside outside]
        exact same
      | copied copied => exact (apart copied).elim

theorem stuck_after (count : Nat) (copy : RegisterCopy) :
    (benchAfter panel operator start count).stuck copy = start.world.2.stuck copy := by
  induction count with
  | zero => rfl
  | succ count ih =>
    rcases register_step panel operator start count with keeps | ⟨_, _, _, takes⟩
    · exact (keeps.stuck copy).trans ih
    · exact (takes.stuck copy).trans ih

theorem history_succ (count : Nat) :
    ∃ events, (course panel (operator.at Bench.station) start (count + 1)).2.history =
      (course panel (operator.at Bench.station) start count).2.history ++ events := by
  rcases before : course panel (operator.at Bench.station) start count with ⟨_ | state, run⟩
  · rw [course_ended _ _ _ before]
    exact ⟨[], by simp⟩
  · obtain ⟨events, _, history, _⟩ := course_step _ _ _ before
    exact ⟨events, history⟩

/-- The two counts are those found in a register, or those of limits that were entered. -/
def Traced (count : Nat) (counts : Nat × Nat) : Prop :=
  (∃ origin, counts = (start.world.2.value origin).limitCounts) ∨
    ∃ first second, Chosen panel.unit
      (course panel (operator.at Bench.station) start count).2.history first second ∧
      counts = (first.count, second.count)

theorem Traced.succ {count : Nat} {counts : Nat × Nat}
    (traced : Traced panel operator start count counts) :
    Traced panel operator start (count + 1) counts := by
  rcases traced with origin | ⟨first, second, chosen, same⟩
  · exact .inl origin
  · obtain ⟨events, history⟩ := history_succ panel operator start count
    refine .inr ⟨first, second, ?_, same⟩
    rw [history]
    exact chosen.append events

theorem counts_traced (free : ∀ copy, start.world.2.stuck copy = 0) (count : Nat)
    (copy : RegisterCopy) :
    Traced panel operator start count
      ((benchAfter panel operator start count).value copy).limitCounts := by
  apply register_induction panel operator start
    (P := fun count _ value => Traced panel operator start count value.limitCounts)
  · intro copy
    exact .inl ⟨copy, rfl⟩
  · intro count copy value before
    exact before.succ
  · intro count copy word change before
    rw [Cell.settled_of_free ((stuck_after panel operator start count copy).trans (free copy))]
    cases change with
    | limits chosen =>
      rw [Word.limitCounts_withLimits]
      exact Traced.succ _ _ _ (.inr ⟨_, _, chosen, rfl⟩)
    | copied => exact (before copy.other).succ

/-- A session never damages bits that are no power, and powers are found or entered. -/
theorem registers_stay_sound (count : Nat) :
    (∀ copy i, Outside i → ∃ origin,
        ((benchAfter panel operator start count).value copy).getLsbD i =
          (start.world.2.value origin).getLsbD i) ∧
      (¬ Copied panel operator start count → ∀ copy i, Outside i →
        ((benchAfter panel operator start count).value copy).getLsbD i =
          (start.world.2.value copy).getLsbD i) ∧
      ((∀ copy, start.world.2.stuck copy = 0) → ∀ copy,
        (∃ origin, ((benchAfter panel operator start count).value copy).limitCounts =
          (start.world.2.value origin).limitCounts) ∨
        ∃ watts₁ watts₂ first second,
          Entered (course panel (operator.at Bench.station) start count).2.history watts₁ watts₂ ∧
          Permitted watts₁ ∧ Permitted watts₂ ∧
          panel.unit.limitUnits watts₁ = .ok first ∧ panel.unit.limitUnits watts₂ = .ok second ∧
          ((benchAfter panel operator start count).value copy).limitCounts =
            (first.count, second.count)) := by
  refine ⟨?_, ?_, ?_⟩
  · intro copy i outside
    exact bit_of_some panel operator start outside count copy
  · intro apart copy i outside
    exact bit_of_own panel operator start outside count apart copy
  · intro free copy
    rcases counts_traced panel operator start free count copy with
      found | ⟨first, second, chosen, same⟩
    · exact .inl found
    · obtain ⟨watts₁, watts₂, entered, units₁, units₂⟩ := chosen
      have ⟨_, _, ⟨_, _, _, accepted₁⟩, ⟨_, _, _, accepted₂⟩, _⟩ := entered
      exact .inr ⟨watts₁, watts₂, first, second, entered, permitted_of_checked accepted₁,
        permitted_of_checked accepted₂, units₁, units₂, same⟩

end Session
end PackagePower
