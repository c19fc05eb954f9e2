import PackagePower.Program.Station
import PackagePower.Proofs.Session.Course

/-!
# Writes settled one by one

A write is settled by its answer and, after a yes, by the device's reply. Settling all of a queue
is a fold that no failure ends. The steps that confirm a queue settle its entries in order up to
the first that is approved and fails, over any devices.
-/

namespace PackagePower

variable {σ ω : Type}

/-- The device's reply to a write, and the world after it. -/
def PendingWrite.carriedOut (handler : Handler σ) : PendingWrite → σ → Except Fault Unit × σ
  | .register copy _ next, world => handler.answer (.write copy next) world
  | .zone limits, world => handler.answer (.writeZone limits) world

/-- The answer to a write that was put to the operator. -/
def Event.answer? : Event → Option (PendingWrite × Bool)
  | .performed (.decide pending) approved => some (pending, approved)
  | _ => none

/-- The device's reply to an attempt at a write. -/
def Event.reply? : Event → Option (Action × Except Fault Unit)
  | .performed (.write copy value) reply => some (.write copy value, reply)
  | .performed (.writeZone limits) reply => some (.writeZone limits, reply)
  | _ => none

namespace Session

/-! ## The fold -/

/-- A write that was put to the operator, with the device's reply if the answer was yes. -/
@[ext]
structure Settled where
  pending : PendingWrite
  reply? : Option (Except Fault Unit)

/-- Puts one write to the operator and carries it out after a yes. -/
def settle (handler : Handler σ) (pending : PendingWrite) (world : σ) : Settled × σ :=
  let (approved, world) := handler.answer (.decide pending) world
  if approved then
    let (reply, world) := pending.carriedOut handler world
    (⟨pending, some reply⟩, world)
  else (⟨pending, none⟩, world)

/-- Puts all of them to the operator, whatever comes of those before. -/
def settleAll (handler : Handler σ) : List PendingWrite → σ → List Settled × σ
  | [], world => ([], world)
  | pending :: rest, world =>
    let (first, world) := settle handler pending world
    let (others, world) := settleAll handler rest world
    (first :: others, world)

namespace Settled

/-- Approved, and the device refused it. -/
def failed (settled : Settled) : Bool :=
  match settled.reply? with
  | some (.error _) => true
  | _ => false

def answer (settled : Settled) : PendingWrite × Bool := (settled.pending, settled.reply?.isSome)

def attempt? (settled : Settled) : Option (Action × Except Fault Unit) :=
  settled.reply?.map fun reply => (settled.pending.action, reply)

/-- What the error channel gets. -/
def complaint (settled : Settled) : List UInt8 :=
  match settled.reply? with
  | some (.error fault) => Sink.bytes (s!"error: {fault.message}" ++ "\n")
  | _ => []

/-- The word that landed in a register. -/
def word? (copy : RegisterCopy) (settled : Settled) : Option Word :=
  match settled.pending, settled.reply? with
  | .register other _ next, some (.ok ()) => if other = copy then some next else none
  | _, _ => none

/-- The constraints that landed in the power zone. -/
def limits? (settled : Settled) : Option ZoneLimits :=
  match settled.pending, settled.reply? with
  | .zone limits, some (.ok ()) => some limits
  | _, _ => none

/-- What happens in the step that settles a write, with `rest` still queued. -/
def events (rest : List PendingWrite) (settled : Settled) : List Event :=
  match settled.reply? with
  | none =>
    [.performed (.decide settled.pending) false,
      .line .out s!"Skipped: {settled.pending.question}"]
  | some (.ok ()) =>
    [.performed (.decide settled.pending) true, settled.pending.attempted (.ok ()),
      .line .out settled.pending.receipt]
  | some (.error fault) =>
    .performed (.decide settled.pending) true :: settled.pending.attempted (.error fault) ::
      ((droppedWarnings rest).map Event.warned ++
        [.line .err s!"error: {fault.message}", .line .out ""])

/-- Where that step leads to. -/
def next (rest : List PendingWrite) (settled : Settled) : SessionState :=
  if settled.failed then .idle else .confirm rest

end Settled

theorem Settled.failed_eq_true {settled : Settled} (fails : settled.failed = true) :
    ∃ fault, settled.reply? = some (.error fault) := by
  unfold failed at fails
  split at fails
  · rename_i fault replied
    exact ⟨fault, replied⟩
  · cases fails

/-- Where a queue first comes to a write that is approved and fails: at its end, if nowhere. -/
def firstFailed (handler : Handler σ) (queue : List PendingWrite) (world : σ) : Nat :=
  (settleAll handler queue world).1.findIdx Settled.failed

variable (handler : Handler σ) (world : σ)

theorem settle_cases (pending : PendingWrite) :
    (∃ middle, handler.answer (.decide pending) world = (false, middle) ∧
        settle handler pending world = (⟨pending, none⟩, middle)) ∨
      ∃ middle, handler.answer (.decide pending) world = (true, middle) ∧
        settle handler pending world =
          (⟨pending, some (pending.carriedOut handler middle).1⟩,
            (pending.carriedOut handler middle).2) := by
  unfold settle
  rcases handler.answer (.decide pending) world with ⟨_ | _, middle⟩
  · exact .inl ⟨middle, rfl, rfl⟩
  · exact .inr ⟨middle, rfl, rfl⟩

@[simp] theorem settle_pending (pending : PendingWrite) :
    (settle handler pending world).1.pending = pending := by
  rcases settle_cases handler world pending with ⟨_, _, settled⟩ | ⟨_, _, settled⟩ <;> rw [settled]

theorem settleAll_world (queue : List PendingWrite) :
    (settleAll handler queue world).2 =
      queue.foldl (fun world pending => (settle handler pending world).2) world := by
  induction queue generalizing world with
  | nil => rfl
  | cons pending rest ih => exact ih _

theorem settleAll_pending (queue : List PendingWrite) :
    (settleAll handler queue world).1.map Settled.pending = queue := by
  induction queue generalizing world with
  | nil => rfl
  | cons pending rest ih => simp [settleAll, ih]

theorem settleAll_length (queue : List PendingWrite) :
    (settleAll handler queue world).1.length = queue.length := by
  rw [← List.length_map Settled.pending, settleAll_pending]

theorem settleAll_append (first second : List PendingWrite) :
    settleAll handler (first ++ second) world =
      ((settleAll handler first world).1 ++
          (settleAll handler second (settleAll handler first world).2).1,
        (settleAll handler second (settleAll handler first world).2).2) := by
  induction first generalizing world with
  | nil => rfl
  | cons pending rest ih => simp [settleAll, ih]

theorem settleAll_take (queue : List PendingWrite) (count : Nat) :
    (settleAll handler (queue.take count) world).1 = (settleAll handler queue world).1.take count := by
  induction queue generalizing world count with
  | nil => simp [settleAll]
  | cons pending rest ih =>
    cases count with
    | zero => rfl
    | succ count => simp [settleAll, ih]

theorem firstFailed_le (queue : List PendingWrite) :
    firstFailed handler queue world ≤ queue.length := by
  rw [← settleAll_length handler world queue]
  exact List.findIdx_le_length

/-- Nothing fails before the first that does. -/
theorem not_failed_before {queue : List PendingWrite} {last : Nat}
    (found : firstFailed handler queue world = last) :
    ∀ entry ∈ (settleAll handler (queue.take last) world).1, entry.failed = false := by
  subst found
  intro entry member
  rw [settleAll_take] at member
  obtain ⟨i, within, rfl⟩ := List.mem_take_iff_getElem.1 member
  exact List.not_of_lt_findIdx (Nat.lt_of_lt_of_le within (Nat.min_le_left _ _))

theorem settleAll_take_succ {queue : List PendingWrite} {last : Nat} {pending : PendingWrite}
    (next : queue[last]? = some pending) :
    settleAll handler (queue.take (last + 1)) world =
      ((settleAll handler (queue.take last) world).1 ++
          [(settle handler pending (settleAll handler (queue.take last) world).2).1],
        (settle handler pending (settleAll handler (queue.take last) world).2).2) := by
  rw [List.take_add_one, next, settleAll_append]
  rfl

/-- The first that fails does. -/
theorem settle_failed {queue : List PendingWrite} {last : Nat} {pending : PendingWrite}
    (found : firstFailed handler queue world = last) (next : queue[last]? = some pending) :
    ∃ fault, (settle handler pending (settleAll handler (queue.take last) world).2).1 =
      ⟨pending, some (.error fault)⟩ := by
  have inside : last < (settleAll handler queue world).1.length := by
    rw [settleAll_length]
    exact (List.getElem?_eq_some_iff.1 next).1
  have reached := congrArg Prod.fst (settleAll_take_succ handler world next)
  rw [settleAll_take, settleAll_take, ← List.take_append_getElem inside,
    List.append_cancel_left_eq, List.cons.injEq] at reached
  have fails : (settleAll handler queue world).1[last].failed = true := by
    subst found
    exact List.findIdx_getElem
  rw [reached.1] at fails
  obtain ⟨fault, replied⟩ := Settled.failed_eq_true fails
  exact ⟨fault, Settled.ext (settle_pending handler _ pending) replied⟩

/-! ## Steps -/

theorem dropped_succeeds (rest : List PendingWrite) :
    Attempt.Succeeds ((droppedWarnings rest).forM fun text => liftM (Program.act (.warn text)))
      ((droppedWarnings rest).map Event.warned) () := by
  unfold droppedWarnings
  split
  · exact .done _
  · exact @Program.Trace.perform _ (.warn _) _ _ _ () (.done _)

theorem decide_succeeds (pending : PendingWrite) (approved : Bool) :
    (liftM (Program.act (.decide pending)) : Attempt Bool).Succeeds
      [.performed (.decide pending) approved] approved :=
  Attempt.succeeds_lift.2 (Program.trace_act.2 rfl)

/-- The step that settles a write, whatever the answer and the reply. -/
theorem step_trace (panel : Panel) (rest : List PendingWrite) (settled : Settled) :
    (step panel (.confirm (settled.pending :: rest))).Trace (settled.events rest)
      (some (settled.next rest)) := by
  obtain ⟨pending, reply?⟩ := settled
  cases reply? with
  | none =>
    have refused : (confirm (pending :: rest)).Ends
        [.performed (.decide pending) false, .line .out s!"Skipped: {pending.question}"]
        (some (.ok (.confirm rest))) :=
      (decide_succeeds pending false).ends_bind (.print (.done _))
    exact step_of_succeeds refused
  | some reply =>
    have attempted := Attempt.succeeds_outcome (trace_perform pending reply)
    cases reply with
    | ok =>
      have landed : (confirm (pending :: rest)).Ends
          [.performed (.decide pending) true, pending.attempted (.ok ()),
            .line .out pending.receipt]
          (some (.ok (.confirm rest))) :=
        (decide_succeeds pending true).ends_bind (attempted.ends_bind (.print (.done _)))
      exact step_of_succeeds landed
    | error fault =>
      have refused : (confirm (pending :: rest)).Ends
          (.performed (.decide pending) true :: pending.attempted (.error fault) ::
            (droppedWarnings rest).map Event.warned) (some (.error fault)) := by
        rw [← List.append_nil ((droppedWarnings rest).map Event.warned)]
        exact (decide_succeeds pending true).ends_bind
          (attempted.ends_bind ((dropped_succeeds rest).ends_bind (.done _)))
      exact @step_of_fault panel (.confirm (pending :: rest)) _ _ refused

/-! ## The phase -/

/-- The events tell what became of each entry, and of no other write. -/
structure Recounts (entries : List Settled) (events : List Event) : Prop where
  answers : events.filterMap Event.answer? = entries.map Settled.answer
  attempts : events.filterMap Event.reply? = entries.filterMap Settled.attempt?
  complaints : events.flatMap (Event.bytesOn .err) = entries.flatMap Settled.complaint

theorem Recounts.append {first second : List Settled} {before after : List Event}
    (told : Recounts first before) (then_told : Recounts second after) :
    Recounts (first ++ second) (before ++ after) where
  answers := by rw [List.filterMap_append, List.map_append, told.answers, then_told.answers]
  attempts := by
    rw [List.filterMap_append, List.filterMap_append, told.attempts, then_told.attempts]
  complaints := by
    rw [List.flatMap_append, List.flatMap_append, told.complaints, then_told.complaints]

theorem recounts_settled (rest : List PendingWrite) (settled : Settled) :
    Recounts [settled] (settled.events rest) := by
  obtain ⟨pending, _ | reply⟩ := settled
  · exact ⟨rfl, rfl, rfl⟩
  cases reply with
  | ok => cases pending <;> exact ⟨rfl, rfl, rfl⟩
  | error fault =>
    dsimp only [Settled.events, droppedWarnings]
    split <;> cases pending <;> exact ⟨rfl, rfl, rfl⟩

theorem replays_attempted {handler : Handler σ} {pending : PendingWrite} {world next last : σ}
    {reply : Except Fault Unit} {later : List Event}
    (carried : pending.carriedOut handler world = (reply, next))
    (replays : handler.Replays next later last) :
    handler.Replays world (pending.attempted reply :: later) last := by
  cases pending <;> exact ⟨next, carried, replays⟩

variable (operator : Operator ω) (station : Station σ)

theorem settle_replays (pending : PendingWrite) (rest : List PendingWrite) (world : ω × σ) :
    (operator.at station).Replays world
      ((settle (operator.at station) pending world).1.events rest)
      (settle (operator.at station) pending world).2 := by
  rcases settle_cases (operator.at station) world pending with
    ⟨middle, answered, settled⟩ | ⟨middle, answered, settled⟩
  · rw [settled]
    exact ⟨middle, answered, rfl⟩
  · rw [settled]
    rcases carried : pending.carriedOut (operator.at station) middle with ⟨_ | _, last⟩
    · refine ⟨middle, answered, replays_attempted carried ?_⟩
      -- An operator and a station take no notice of what is logged.
      unfold droppedWarnings
      split
      · exact rfl
      · exact ⟨_, rfl, rfl⟩
    · exact ⟨middle, answered, replays_attempted carried rfl⟩

theorem firstFailed_cons (pending : PendingWrite) (rest : List PendingWrite) (world : σ) :
    firstFailed handler (pending :: rest) world =
      bif (settle handler pending world).1.failed then 0
      else firstFailed handler rest (settle handler pending world).2 + 1 :=
  List.findIdx_cons

/-- From a queue to the menu again: one step for each entry that is reached, and one more where
the queue ends. -/
theorem steps_trace (panel : Panel) (queue : List PendingWrite) (world : ω × σ) {last : Nat}
    (found : firstFailed (operator.at station) queue world = last) :
    ∃ events, (steps panel (last + 1) (.confirm queue)).Trace events (some .idle) ∧
      Recounts (settleAll (operator.at station) (queue.take (last + 1)) world).1 events ∧
      (operator.at station).Replays world events
        (settleAll (operator.at station) (queue.take (last + 1)) world).2 := by
  induction queue generalizing world last with
  | nil =>
    cases found
    refine ⟨[.line .out ""], ?_, ⟨rfl, rfl, rfl⟩, rfl⟩
    have ended : (confirm []).Succeeds [.line .out ""] .idle := .print (.done _)
    have step := @step_of_succeeds panel (.confirm []) _ _ ended
    exact step.bind (.done _)
  | cons pending rest ih =>
    have trace := step_trace panel rest (settle (operator.at station) pending world).1
    rw [settle_pending] at trace
    have told := recounts_settled rest (settle (operator.at station) pending world).1
    have replays := settle_replays operator station pending rest world
    rw [firstFailed_cons] at found
    cases fails : (settle (operator.at station) pending world).1.failed with
    | true =>
      rw [fails] at found
      cases found
      rw [Settled.next, if_pos fails] at trace
      refine ⟨_, ?_, told, replays⟩
      rw [← List.append_nil (Settled.events rest _)]
      exact trace.bind (.done _)
    | false =>
      rw [fails] at found
      cases found
      rw [Settled.next, if_neg (Bool.eq_false_iff.1 fails)] at trace
      obtain ⟨later, rest_trace, rest_told, rest_replays⟩ :=
        ih (settle (operator.at station) pending world).2 rfl
      exact ⟨_, trace.bind rest_trace, told.append rest_told,
        Handler.replays_append.2 ⟨_, replays, rest_replays⟩⟩

end Session
end PackagePower
