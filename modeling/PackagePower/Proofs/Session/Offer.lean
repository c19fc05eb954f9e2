import PackagePower.Proofs.Session.Answers
import PackagePower.Proofs.Text.Hexadecimal

/-!
# Writes are offered only if all is valid

Setting and synchronising the limits ask, check and read first. Either every answer is good and
every register can be read, and all writes are shown and left to be confirmed; or nothing is, and
the menu follows one line that says why.
-/

namespace PackagePower.Session
open Attempt

variable {ω σ : Type} {handler : Handler σ} (operator : Operator ω) (own : ω) (bench : Bench)

/-- The line that shows a write before it is decided. -/
def previewLine : PendingWrite → String
  | .register .msr _ next => "MSR  new = " ++ next.shown
  | .register .mmio _ next => "MMIO new = " ++ next.shown
  | .zone limits =>
    "Powercap new = PL1 " ++ toString limits.first.toNat ++ "uW " ++
      ("PL2 " ++ toString limits.second.toNat ++ "uW")

theorem describe_eq_previewLine (pending : PendingWrite) :
    pending.describe = previewLine pending := by
  rcases pending with ⟨_ | _, current, next⟩ | limits
  · exact congrArg ("MSR  new = " ++ ·) next.text_eq_shown
  · exact congrArg ("MMIO new = " ++ ·) next.text_eq_shown
  · rfl

/-! ## New limits -/

/-- Limits that an operator may ask for, in watts and in units, and the registers they are for. -/
structure NewLimits where
  watts₁ : Binary64
  watts₂ : Binary64
  first : LimitUnits
  second : LimitUnits
  selected : List RegisterCopy

/-- The registers behind each number of the menu. -/
inductive Selects : Nat → List RegisterCopy → Prop
  | msr : Selects 1 [.msr]
  | mmio : Selects 2 [.mmio]
  | both : Selects 3 [.msr, .mmio]

theorem selects_copies (target : WriteTarget) : Selects (Menu.number target) (copies target) := by
  cases target with
  | msr => exact .msr
  | mmio => exact .mmio
  | both => exact .both

theorem Selects.target {n : Nat} {selected : List RegisterCopy} (selects : Selects n selected) :
    ∃ target : WriteTarget, n = Menu.number target ∧ selected = copies target := by
  cases selects with
  | msr => exact ⟨.msr, rfl, rfl⟩
  | mmio => exact ⟨.mmio, rfl, rfl⟩
  | both => exact ⟨.both, rfl, rfl⟩

theorem Selects.nodup {n : Nat} {selected : List RegisterCopy} (selects : Selects n selected) :
    selected.Nodup := by
  cases selects <;> decide

namespace NewLimits

def labels : List String :=
  ["PL1 watts (q to cancel): ", "PL2 watts (q to cancel): ", "Select target: "]

def heading : String := "Target: 1) MSR  2) MMIO  3) Both"

/-- The answers ask for these limits, and the fields of a register hold them. -/
def Given (unit : PowerUnit) (lines : List (Option String)) (limits : NewLimits) : Prop :=
  ∃ text₁ text₂ text₃ n, List.Forall₂ Answers lines [text₁, text₂, text₃] ∧
    GivesWatts text₁ limits.watts₁ ∧ GivesWatts text₂ limits.watts₂ ∧
    unit.limitUnits limits.watts₁ = .ok limits.first ∧
    unit.limitUnits limits.watts₂ = .ok limits.second ∧
    Numbers text₃ n ∧ Selects n limits.selected

def Readable (bench : Bench) (limits : NewLimits) : Prop :=
  ∀ copy ∈ limits.selected, bench.Readable copy

/-- The limits go into each selected register as it is, and then into the zone. -/
def queue (bench : Bench) (zone : ZoneLimits) (limits : NewLimits) : List PendingWrite :=
  (limits.selected.map fun copy =>
    .register copy (bench.value copy) ((bench.value copy).withLimits limits.first limits.second)) ++
    [.zone zone]

/-- The line that shows the limits in units and what the units come to. -/
def countLine (unit : PowerUnit) (limits : NewLimits) : String :=
  "PL1 = " ++ limits.first.shown ++ " (" ++ (unit.watts limits.first.count).fixed 3 ++ " W), " ++
    ("PL2 = " ++ limits.second.shown ++ " (" ++ (unit.watts limits.second.count).fixed 3 ++ " W)")

theorem limitLine_eq (unit : PowerUnit) (limits : NewLimits) :
    limitLine unit limits.first limits.second = limits.countLine unit := by
  unfold limitLine countLine
  rw [limits.first.text_eq_shown, limits.second.text_eq_shown]
  rfl

end NewLimits

theorem comesTo_counted {α : Type} {checked : Except RangeError α} {value : α}
    (counted : checked = .ok value) (world : σ) :
    (Attempt.ofExcept (inRange checked)).ComesTo handler world [] (.ok value) world :=
  inRange_eq_ok.2 counted ▸ comesTo_ofExcept _ _ _

theorem target_line : s!"Target: {Menu.line WriteTarget}" = NewLimits.heading := by decide

theorem propose_ok {panel : Panel} {limits : NewLimits} {zone : ZoneLimits} {target : WriteTarget}
    (selected : limits.selected = copies target)
    (counted₁ : panel.unit.limitUnits limits.watts₁ = .ok limits.first)
    (counted₂ : panel.unit.limitUnits limits.watts₂ = .ok limits.second)
    (readable : limits.Readable bench)
    (zone₁ : microwatts limits.watts₁ = .ok zone.first)
    (zone₂ : microwatts limits.watts₂ = .ok zone.second) :
    ∃ last, (propose panel target limits.watts₁ limits.watts₂).ComesTo
      (operator.at Bench.station) (own, bench)
      (limits.countLine panel.unit :: (limits.queue bench zone).map PendingWrite.describe)
      (.ok (.confirm (limits.queue bench zone))) last := by
  unfold NewLimits.Readable at readable
  rw [selected] at readable
  obtain ⟨last, read⟩ := readAll_ok operator own bench (selects_copies target).nodup readable
  rw [← limits.limitLine_eq, NewLimits.queue, selected]
  exact ⟨last, (comesTo_counted counted₁ _).bind ((comesTo_counted counted₂ _).bind
    (read.bind ((comesTo_counted zone₁ _).bind ((comesTo_counted zone₂ _).bind
      ((comesTo_say _ _ _).bind (preview_comesTo _ _))))))⟩

theorem propose_cases (panel : Panel) (target : WriteTarget) (watts₁ watts₂ : Binary64) :
    (∃ first second, panel.unit.limitUnits watts₁ = .ok first ∧
        panel.unit.limitUnits watts₂ = .ok second ∧ ∀ copy ∈ copies target, bench.Readable copy) ∨
      Declines (operator.at Bench.station) (propose panel target watts₁ watts₂) (own, bench) [] := by
  unfold propose
  cases counted₁ : panel.unit.limitUnits watts₁ with
  | error cause => exact .inr (.of_error (comesTo_ofExcept _ _ _))
  | ok first =>
    cases counted₂ : panel.unit.limitUnits watts₂ with
    | error cause => exact .inr (.bind (comesTo_ofExcept _ _ _) (.of_error (comesTo_ofExcept _ _ _)))
    | ok second =>
      by_cases readable : ∀ copy ∈ copies target, bench.Readable copy
      · exact .inl ⟨first, second, rfl, rfl, readable⟩
      · obtain ⟨fault, last, failed⟩ :=
          readAll_error operator own bench (selects_copies target).nodup readable
        exact .inr (.bind (comesTo_ofExcept _ _ _) (.bind (comesTo_ofExcept _ _ _)
          (.of_error failed)))

theorem setLimits_ok {panel : Panel} {limits : NewLimits} {zone : ZoneLimits}
    (given : limits.Given panel.unit (operator.lines NewLimits.labels own))
    (readable : limits.Readable bench)
    (zone₁ : microwatts limits.watts₁ = .ok zone.first)
    (zone₂ : microwatts limits.watts₂ = .ok zone.second) :
    ∃ last, (setLimits panel).ComesTo (operator.at Bench.station) (own, bench)
      (NewLimits.heading :: limits.countLine panel.unit ::
        (limits.queue bench zone).map PendingWrite.describe)
      (.ok (.confirm (limits.queue bench zone))) last := by
  obtain ⟨text₁, text₂, text₃, n, asked, given₁, given₂, counted₁, counted₂, numbered, selects⟩ :=
    given
  simp only [NewLimits.labels, Operator.lines, List.forall₂_cons, List.Forall₂.nil, and_true] at asked
  obtain ⟨answers₁, answers₂, answers₃⟩ := asked
  obtain ⟨target, rfl, selected⟩ := selects.target
  have asked₁ := askWatts_comesTo operator own bench "PL1 watts (q to cancel): "
  rw [answers_iff.1 answers₁, wattsOf_given given₁ answers₁.trim] at asked₁
  have asked₂ := askWatts_comesTo operator (operator.line "PL1 watts (q to cancel): " own).2 bench
    "PL2 watts (q to cancel): "
  rw [answers_iff.1 answers₂, wattsOf_given given₂ answers₂.trim] at asked₂
  have asked₃ := ask_comesTo operator (operator.line "PL2 watts (q to cancel): "
    (operator.line "PL1 watts (q to cancel): " own).2).2 bench "Select target: "
  rw [answers_iff.1 answers₃] at asked₃
  obtain ⟨last, proposed⟩ :=
    propose_ok operator _ bench selected counted₁ counted₂ readable zone₁ zone₂
  rw [← target_line]
  refine ⟨last, asked₁.bind (asked₂.bind ((comesTo_say _ _ _).bind (asked₃.bind ?_)))⟩
  dsimp only
  rw [(Menu.pick?_eq_some_iff Menu.numbered_target).2 numbered]
  exact proposed

theorem setLimits_cases (panel : Panel) :
    (∃ limits : NewLimits, limits.Given panel.unit (operator.lines NewLimits.labels own) ∧
        limits.Readable bench) ∨
      ∃ told, told <+: [NewLimits.heading] ∧
        Declines (operator.at Bench.station) (setLimits panel) (own, bench) told := by
  rw [← target_line]
  rcases askWatts_cases operator own bench "PL1 watts (q to cancel): " with
    ⟨text₁, watts₁, answers₁, given₁, asked₁⟩ | declined
  case inr => exact .inr ⟨[], List.nil_prefix, declined _ rfl⟩
  rcases askWatts_cases operator _ bench "PL2 watts (q to cancel): " with
    ⟨text₂, watts₂, answers₂, given₂, asked₂⟩ | declined
  case inr => exact .inr ⟨[], List.nil_prefix, .bind asked₁ (declined _ rfl)⟩
  rcases askItem_cases operator _ bench "Select target: " Menu.numbered_target with
    ⟨text₃, target, answers₃, numbered, asked₃⟩ | declined
  case inr =>
    refine .inr ⟨_, List.prefix_refl _, .bind asked₁ (.bind asked₂ (.bind (comesTo_say _ _ _)
      (declined _ rfl ?_)))⟩
    intro text unknown
    dsimp only
    rw [unknown]
    exact ⟨_, rfl⟩
  rcases propose_cases operator _ bench panel target watts₁ watts₂ with
    ⟨first, second, counted₁, counted₂, readable⟩ | declined
  · refine .inl ⟨⟨watts₁, watts₂, first, second, copies target⟩, ?_, readable⟩
    have asked : List.Forall₂ Answers (operator.lines NewLimits.labels own) [text₁, text₂, text₃] :=
      .cons answers₁ (.cons answers₂ (.cons answers₃ .nil))
    exact ⟨text₁, text₂, text₃, _, asked, given₁, given₂, counted₁, counted₂, numbered,
      selects_copies target⟩
  · refine .inr ⟨_, List.prefix_refl _, .bind asked₁ (.bind asked₂ (.bind (comesTo_say _ _ _)
      (.bind asked₃ ?_)))⟩
    dsimp only
    rw [(Menu.pick?_eq_some_iff Menu.numbered_target).2 numbered]
    exact declined

/-! ## One copy like the other -/

/-- The register that is read and the one that is made like it. -/
structure Copying where
  source : RegisterCopy
  target : RegisterCopy

/-- The registers behind each number of the menu. -/
inductive Directs : Nat → Copying → Prop
  | msrToMmio : Directs 1 ⟨.msr, .mmio⟩
  | mmioToMsr : Directs 2 ⟨.mmio, .msr⟩

theorem directs_ends (direction : SyncDirection) :
    Directs (Menu.number direction) ⟨(ends direction).1, (ends direction).2⟩ := by
  cases direction with
  | msrToMmio => exact .msrToMmio
  | mmioToMsr => exact .mmioToMsr

theorem Directs.direction {n : Nat} {copying : Copying} (directs : Directs n copying) :
    ∃ direction : SyncDirection,
      n = Menu.number direction ∧ ends direction = (copying.source, copying.target) := by
  cases directs with
  | msrToMmio => exact ⟨.msrToMmio, rfl, rfl⟩
  | mmioToMsr => exact ⟨.mmioToMsr, rfl, rfl⟩

theorem Directs.apart {n : Nat} {copying : Copying} (directs : Directs n copying) :
    copying.target ≠ copying.source := by
  cases directs <;> decide

namespace Copying

def labels : List String := ["Select direction: "]

def heading : String := "Sync: 1) MSR -> MMIO  2) MMIO -> MSR"

/-- The answer chooses the registers. -/
def Given (lines : List (Option String)) (copying : Copying) : Prop :=
  ∃ text n, List.Forall₂ Answers lines [text] ∧ Numbers text n ∧ Directs n copying

def Readable (bench : Bench) (copying : Copying) : Prop :=
  bench.Readable copying.source ∧ bench.Readable copying.target

def queue (bench : Bench) (copying : Copying) : List PendingWrite :=
  [.register copying.target (bench.value copying.target) (bench.value copying.source)]

end Copying

theorem direction_line : s!"Sync: {Menu.line SyncDirection}" = Copying.heading := by decide

theorem syncLimits_ok {copying : Copying}
    (given : copying.Given (operator.lines Copying.labels own)) (readable : copying.Readable bench) :
    ∃ last, syncLimits.ComesTo (operator.at Bench.station) (own, bench)
      (Copying.heading :: (copying.queue bench).map PendingWrite.describe)
      (.ok (.confirm (copying.queue bench))) last := by
  obtain ⟨text, n, asked, numbered, directs⟩ := given
  simp only [Copying.labels, Operator.lines, List.forall₂_cons, List.Forall₂.nil, and_true] at asked
  have apart := directs.apart
  obtain ⟨direction, rfl, found⟩ := directs.direction
  have answered := ask_comesTo operator own bench "Select direction: "
  rw [answers_iff.1 asked] at answered
  have source := read_ok operator (operator.line "Select direction: " own).2 bench readable.1
  have target := read_ok operator (operator.line "Select direction: " own).2
    (bench.afterRead copying.source) ((Bench.readable_afterRead apart).2 readable.2)
  rw [Bench.value_afterRead apart] at target
  rw [← direction_line]
  refine ⟨((operator.line "Select direction: " own).2,
    (bench.afterRead copying.source).afterRead copying.target),
    (comesTo_say _ _ _).bind (answered.bind ?_)⟩
  dsimp only
  rw [(Menu.pick?_eq_some_iff Menu.numbered_direction).2 numbered]
  dsimp only
  rw [found]
  exact source.bind (target.bind (preview_comesTo _ _))

theorem syncLimits_cases :
    (∃ copying : Copying, copying.Given (operator.lines Copying.labels own) ∧
        copying.Readable bench) ∨
      Declines (operator.at Bench.station) syncLimits (own, bench) [Copying.heading] := by
  rw [← direction_line]
  rcases askItem_cases operator own bench "Select direction: " Menu.numbered_direction with
    ⟨text, direction, answers, numbered, asked⟩ | declined
  case inr =>
    refine .inr (.bind (comesTo_say _ _ _) (declined _ rfl ?_))
    intro text unknown
    dsimp only
    rw [unknown]
    exact ⟨_, rfl⟩
  have directs := directs_ends direction
  by_cases readable : Copying.Readable bench ⟨(ends direction).1, (ends direction).2⟩
  · exact .inl ⟨_, ⟨text, _, .cons answers .nil, numbered, directs⟩, readable⟩
  · refine .inr (.bind (comesTo_say _ _ _) (.bind asked ?_))
    dsimp only
    rw [(Menu.pick?_eq_some_iff Menu.numbered_direction).2 numbered]
    by_cases source : bench.Readable (ends direction).1
    · have target : ¬ (bench.afterRead (ends direction).1).Readable (ends direction).2 := by
        rw [Bench.readable_afterRead directs.apart]
        exact fun able => readable ⟨source, able⟩
      obtain ⟨fault, failed⟩ := read_error operator _ _ target
      exact .bind (read_ok operator _ bench source) (.of_error failed)
    · obtain ⟨fault, failed⟩ := read_error operator _ bench source
      exact .of_error failed

/-! ## Steps -/

/-- The writes are shown, in order, and left to be confirmed. -/
structure Offers (run : Option SessionState × Run σ) (above : List String)
    (queue : List PendingWrite) : Prop where
  state : run.1 = some (.confirm queue)
  out : run.2.out.kept = Sink.bytes (joinLines (above ++ queue.map previewLine))
  err : run.2.err.kept = []

/-- The menu is next, and one line says why: that all is canceled, or what is wrong. -/
structure Excused (run : Option SessionState × Run σ) (above : List String) : Prop where
  state : run.1 = some .idle
  why : (run.2.out.kept = Sink.bytes (joinLines (above ++ ["Canceled.", ""])) ∧
      run.2.err.kept = []) ∨
    ∃ fault : Fault, run.2.out.kept = Sink.bytes (joinLines (above ++ [""])) ∧
      run.2.err.kept = Sink.bytes (joinLines [s!"error: {fault.message}"])

section
variable {panel : Panel} {state : SessionState} {world last : σ} {lines : List String}

theorem step_ok {next : SessionState}
    (comes : (advance panel state).ComesTo handler world lines (.ok next) last) :
    ∃ after, (step panel state).run handler { world } = (some next, after) ∧
      after.out.kept = Sink.bytes (joinLines lines) ∧ after.err.kept = [] := by
  obtain ⟨events, succeeds, replays, prints⟩ := comes
  obtain ⟨after, finished, _, _, kept⟩ := Program.run_fresh (step_of_succeeds succeeds) replays
  exact ⟨after, finished, (kept .out).trans prints.out, (kept .err).trans prints.err⟩

theorem step_excused (declined : Declines handler (advance panel state) world lines) :
    Excused ((step panel state).run handler { world }) lines := by
  obtain ⟨last, canceled | ⟨fault, events, ended, replays, prints⟩⟩ := declined
  · obtain ⟨after, finished, out, err⟩ := step_ok canceled
    rw [finished]
    exact ⟨rfl, .inl ⟨out, err⟩⟩
  · have told : handler.Replays world
        (events ++ [.line .err s!"error: {fault.message}", .line .out ""]) last :=
      Handler.replays_append.2 ⟨last, replays, rfl⟩
    obtain ⟨after, finished, _, _, kept⟩ := Program.run_fresh (step_of_fault ended) told
    rw [finished]
    refine ⟨rfl, .inr ⟨fault, (kept .out).trans ?_, (kept .err).trans ?_⟩⟩
    · rw [List.flatMap_append, prints.out, bytes_joinLines_append]
      rfl
    · rw [List.flatMap_append, prints.err, bytes_joinLines .err]
      rfl

end

theorem run_quiet (panel : Panel) (handler : Handler σ) (world : σ) {state : SessionState}
    (elsewhere : ∀ pending rest, state ≠ .confirm (pending :: rest)) :
    ∀ event ∈ ((step panel state).run handler { world }).2.history, event.Within Action.Quiet := by
  obtain ⟨events, trace, history, _⟩ := Program.run_trace handler (step panel state) { world }
  rw [history]
  exact step_quiet elsewhere trace

/-- A step that offers writes for whatever is valid, and excuses itself if nothing is, offers them
exactly then. -/
theorem offered_iff {Order : Type} {valid : Order → Prop} {opening : List String → Prop}
    {run : Option SessionState × Run σ}
    (offers : ∀ order, valid order → ∃ above queue, Offers run above queue)
    (otherwise : (∃ order, valid order) ∨ ∃ above, opening above ∧ Excused run above) :
    ((∃ queue, run.1 = some (.confirm queue)) ↔ ∃ order, valid order) ∧
      ((∀ queue, run.1 ≠ some (.confirm queue)) → ∃ above, opening above ∧ Excused run above) := by
  rcases otherwise with ⟨order, good⟩ | ⟨above, opened, excused⟩
  · obtain ⟨_, queue, offered⟩ := offers order good
    exact ⟨iff_of_true ⟨queue, offered.state⟩ ⟨order, good⟩,
      fun never => (never queue offered.state).elim⟩
  · have never (queue : List PendingWrite) : run.1 ≠ some (.confirm queue) := by
      rw [excused.state]
      intro same
      cases same
    refine ⟨iff_of_false (fun offered => ?_) (fun some_valid => ?_), fun _ => ⟨above, opened, excused⟩⟩
    · obtain ⟨queue, state⟩ := offered
      exact never queue state
    · obtain ⟨order, good⟩ := some_valid
      obtain ⟨_, queue, offered⟩ := offers order good
      exact never queue offered.state

theorem step_offers {panel : Panel} {state : SessionState} {world last : σ} {above : List String}
    {queue : List PendingWrite}
    (comes : (advance panel state).ComesTo handler world
      (above ++ queue.map PendingWrite.describe) (.ok (.confirm queue)) last) :
    Offers ((step panel state).run handler { world }) above queue := by
  obtain ⟨after, finished, out, err⟩ := step_ok comes
  have shown : queue.map PendingWrite.describe = queue.map previewLine :=
    List.map_congr_left fun pending _ => describe_eq_previewLine pending
  rw [shown] at out
  rw [finished]
  exact ⟨rfl, out, err⟩

theorem setLimits_offers {panel : Panel} (small : panel.unit.power.toNat ≤ 15) {limits : NewLimits}
    (given : limits.Given panel.unit (operator.lines NewLimits.labels own))
    (readable : limits.Readable bench) :
    ∃ zone, microwatts limits.watts₁ = .ok zone.first ∧ microwatts limits.watts₂ = .ok zone.second ∧
      Offers ((step panel .setLimits).run (operator.at Bench.station) { world := (own, bench) })
        [NewLimits.heading, limits.countLine panel.unit] (limits.queue bench zone) := by
  have ⟨_, _, _, _, _, _, _, counted₁, counted₂, _⟩ := given
  obtain ⟨first, zone₁⟩ := microwatts_of_limitUnits small counted₁
  obtain ⟨second, zone₂⟩ := microwatts_of_limitUnits small counted₂
  obtain ⟨last, comes⟩ :=
    @setLimits_ok _ operator own bench panel limits ⟨first, second⟩ given readable zone₁ zone₂
  exact ⟨⟨first, second⟩, zone₁, zone₂, step_offers comes⟩

theorem syncLimits_offers (panel : Panel) {copying : Copying}
    (given : copying.Given (operator.lines Copying.labels own)) (readable : copying.Readable bench) :
    Offers ((step panel .syncLimits).run (operator.at Bench.station) { world := (own, bench) })
      [Copying.heading] (copying.queue bench) := by
  obtain ⟨last, comes⟩ := syncLimits_ok operator own bench given readable
  exact step_offers comes

/-- Writes are offered exactly where all answers are good and all registers in question can be
read; else the menu is next, after one line that says why. Nothing is decided or written. -/
theorem offered_iff_all_is_valid (panel : Panel) (small : panel.unit.power.toNat ≤ 15)
    (operator : Operator ω) (own : ω) (bench : Bench) :
    let run state := (step panel state).run (operator.at Bench.station) { world := (own, bench) }
    let given (limits : NewLimits) :=
      limits.Given panel.unit (operator.lines NewLimits.labels own) ∧ limits.Readable bench
    let chosen (copying : Copying) :=
      copying.Given (operator.lines Copying.labels own) ∧ copying.Readable bench
    ((∃ queue, (run .setLimits).1 = some (.confirm queue)) ↔ ∃ limits, given limits) ∧
    (∀ limits, given limits → ∃ zone, microwatts limits.watts₁ = .ok zone.first ∧
      microwatts limits.watts₂ = .ok zone.second ∧
      Offers (run .setLimits)
        [NewLimits.heading, limits.countLine panel.unit] (limits.queue bench zone)) ∧
    ((∀ queue, (run .setLimits).1 ≠ some (.confirm queue)) →
      ∃ above, above <+: [NewLimits.heading] ∧ Excused (run .setLimits) above) ∧
    ((∃ queue, (run .syncLimits).1 = some (.confirm queue)) ↔ ∃ copying, chosen copying) ∧
    (∀ copying, chosen copying →
      Offers (run .syncLimits) [Copying.heading] (copying.queue bench)) ∧
    ((∀ queue, (run .syncLimits).1 ≠ some (.confirm queue)) →
      Excused (run .syncLimits) [Copying.heading]) ∧
    ∀ state, state = .setLimits ∨ state = .syncLimits →
      ∀ event ∈ (run state).2.history, event.Within Action.Quiet := by
  intro run given chosen
  have newLimits (limits : NewLimits) (good : given limits) :=
    setLimits_offers operator own bench small good.1 good.2
  have oneCopy (copying : Copying) (good : chosen copying) :=
    syncLimits_offers operator own bench panel good.1 good.2
  have limited : (∃ limits, given limits) ∨
      ∃ above, above <+: [NewLimits.heading] ∧ Excused (run .setLimits) above := by
    rcases setLimits_cases operator own bench panel with good | ⟨above, opened, declined⟩
    · exact .inl good
    · exact .inr ⟨above, opened, step_excused declined⟩
  have copied : (∃ copying, chosen copying) ∨
      ∃ above, above = [Copying.heading] ∧ Excused (run .syncLimits) above := by
    rcases syncLimits_cases operator own bench with good | declined
    · exact .inl good
    · exact .inr ⟨_, rfl, step_excused declined⟩
  obtain ⟨limits_iff, limits_excused⟩ := offered_iff (fun limits good => by
    obtain ⟨zone, _, _, offered⟩ := newLimits limits good
    exact ⟨_, _, offered⟩) limited
  obtain ⟨copy_iff, copy_excused⟩ :=
    offered_iff (fun copying good => ⟨_, _, oneCopy copying good⟩) copied
  refine ⟨limits_iff, newLimits, limits_excused, copy_iff, oneCopy, ?_, ?_⟩
  · intro never
    obtain ⟨_, rfl, excused⟩ := copy_excused never
    exact excused
  · rintro state (rfl | rfl)
    · exact run_quiet panel _ _ (by simp)
    · exact run_quiet panel _ _ (by simp)

/-- A bench where the copies differ. -/
def unequalCopies : Bench where
  msr := { place := "MSR", value := 0x004284E800DF81B8#64 }
  mmio := { place := "MMIO", value := 0x00DF81B800420000#64 }
  zone := ⟨⟨"", []⟩⟩
  host := .empty

def unequalPanel : Panel := ⟨.eighthWatt, RegisterCopy.name, "zone"⟩

/-- One step over unequal copies, where these lines are given. -/
def unequalRun (state : SessionState) (lines : List (Option String)) :
    Option SessionState × Run (Script × Bench) :=
  (step unequalPanel state).run (Script.operator.at Bench.station)
    { world := (⟨lines, []⟩, unequalCopies) }

/-- Limits of 150 and 170 watts are offered for both copies, each as it stands, and for the zone;
and the processor's value is offered for the chipset. -/
theorem limits_and_copying_are_offered :
    Offers (unequalRun .setLimits [some "150", some " 170", some "+3 "])
      ["Target: 1) MSR  2) MMIO  3) Both",
        "PL1 = 1200 (0x4B0) (150.000 W), PL2 = 1360 (0x550) (170.000 W)"]
      [.register .msr 0x004284E800DF81B8#64 0x0042855000DF84B0#64,
        .register .mmio 0x00DF81B800420000#64 0x00DF8550004204B0#64,
        .zone ⟨150000000, 170000000⟩] ∧
    Offers (unequalRun .syncLimits [some "\t1"]) ["Sync: 1) MSR -> MMIO  2) MMIO -> MSR"]
      [.register .mmio 0x00DF81B800420000#64 0x004284E800DF81B8#64] := by
  constructor
  · let limits : NewLimits := ⟨.ofNat 150, .ofNat 170, ⟨1200, by decide, by decide⟩,
      ⟨1360, by decide, by decide⟩, [.msr, .mmio]⟩
    have lines : List.Forall₂ Answers [some "150", some " 170", some "+3 "] ["150", "170", "+3"] :=
      .cons (answers_iff.2 (by decide +kernel)) (.cons (answers_iff.2 (by decide +kernel))
        (.cons (answers_iff.2 (by decide +kernel)) .nil))
    have watts₁ : GivesWatts "150" limits.watts₁ :=
      ⟨by decide +kernel, checkWatts_eq_ok_iff.1 (by decide +kernel)⟩
    have watts₂ : GivesWatts "170" limits.watts₂ :=
      ⟨by decide +kernel, checkWatts_eq_ok_iff.1 (by decide +kernel)⟩
    have three : Numbers "+3" 3 :=
      ⟨['+'], ['3'], by decide, .inr rfl, by decide, [3], .cons ⟨by decide, .inl rfl⟩ .nil, rfl⟩
    have given : limits.Given unequalPanel.unit (Script.operator.lines NewLimits.labels
        ⟨[some "150", some " 170", some "+3 "], []⟩) :=
      ⟨_, _, _, 3, lines, watts₁, watts₂, by decide +kernel, by decide +kernel, three, .both⟩
    have readable : limits.Readable unequalCopies := by
      rintro (_ | _) _ <;> exact ⟨_, rfl⟩
    obtain ⟨_, offers, _⟩ := offered_iff_all_is_valid unequalPanel (by decide) Script.operator
      ⟨[some "150", some " 170", some "+3 "], []⟩ unequalCopies
    obtain ⟨zone, zone₁, zone₂, offered⟩ := offers limits ⟨given, readable⟩
    have converted₁ : microwatts limits.watts₁ = .ok 150000000 := by decide +kernel
    have converted₂ : microwatts limits.watts₂ = .ok 170000000 := by decide +kernel
    obtain ⟨first, second⟩ := zone
    obtain rfl : first = 150000000 := Except.ok.inj (zone₁.symm.trans converted₁)
    obtain rfl : second = 170000000 := Except.ok.inj (zone₂.symm.trans converted₂)
    have shown : limits.countLine unequalPanel.unit =
        "PL1 = 1200 (0x4B0) (150.000 W), PL2 = 1360 (0x550) (170.000 W)" := by decide +kernel
    have queued : limits.queue unequalCopies ⟨150000000, 170000000⟩ =
        [.register .msr 0x004284E800DF81B8#64 0x0042855000DF84B0#64,
          .register .mmio 0x00DF81B800420000#64 0x00DF8550004204B0#64,
          .zone ⟨150000000, 170000000⟩] := by decide
    rw [shown, queued] at offered
    exact offered
  · have one : Numbers "1" 1 :=
      ⟨[], ['1'], by decide, .inl rfl, by decide, [1], .cons ⟨by decide, .inl rfl⟩ .nil, rfl⟩
    have given : Copying.Given (Script.operator.lines Copying.labels ⟨[some "\t1"], []⟩)
        ⟨.msr, .mmio⟩ :=
      ⟨"1", 1, .cons (answers_iff.2 (by decide +kernel)) .nil, one, .msrToMmio⟩
    have readable : Copying.Readable unequalCopies ⟨.msr, .mmio⟩ := ⟨⟨_, rfl⟩, _, rfl⟩
    obtain ⟨_, _, _, _, offers, _⟩ := offered_iff_all_is_valid unequalPanel (by decide)
      Script.operator ⟨[some "\t1"], []⟩ unequalCopies
    exact offers ⟨.msr, .mmio⟩ ⟨given, readable⟩

end PackagePower.Session
