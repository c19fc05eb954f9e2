import PackagePower.Proofs.Program.Attempt
import PackagePower.Report

/-!
# What an attempt comes to

Where no channel cuts it short, an attempt has one outcome: the lines it leaves on the output
channel, its result and the last world. Each way to build an attempt has a lemma for that. A
sequence ends with its first fault.
-/

namespace PackagePower

variable {σ α β : Type}

theorem bytes_joinLines (channel : Channel) (lines : List String) :
    Sink.bytes (joinLines lines) =
      (lines.map (Event.line channel)).flatMap (Event.bytesOn channel) := by
  induction lines with
  | nil => rfl
  | cons line rest ih =>
    have joined : joinLines (line :: rest) = (line ++ "\n") ++ joinLines rest := by
      simp [joinLines]
    have apart : Sink.bytes ((line ++ "\n") ++ joinLines rest) =
        Sink.bytes (line ++ "\n") ++ Sink.bytes (joinLines rest) := by
      simp [Sink.bytes]
    have first : Event.bytesOn channel (.line channel line) = Sink.bytes (line ++ "\n") :=
      if_pos rfl
    rw [joined, apart, ih, List.map_cons, List.flatMap_cons, first]

theorem bytes_joinLines_append (first second : List String) :
    Sink.bytes (joinLines (first ++ second)) =
      Sink.bytes (joinLines first) ++ Sink.bytes (joinLines second) := by
  simp only [bytes_joinLines .out, List.map_append, List.flatMap_append]

/-- The lines, and nothing else, are on the output channel, and nothing on the other. -/
structure Prints (lines : List String) (events : List Event) : Prop where
  out : events.flatMap (Event.bytesOn .out) = Sink.bytes (joinLines lines)
  err : events.flatMap (Event.bytesOn .err) = []

theorem Prints.append {first second : List String} {before after : List Event}
    (told : Prints first before) (later : Prints second after) :
    Prints (first ++ second) (before ++ after) where
  out := by rw [List.flatMap_append, told.out, later.out, bytes_joinLines_append]
  err := by rw [List.flatMap_append, told.err, later.err, List.append_nil]

theorem prints_lines (lines : List String) : Prints lines (lines.map (Event.line .out)) where
  out := (bytes_joinLines .out lines).symm
  err := by
    rw [List.flatMap_eq_nil_iff]
    intro event member
    obtain ⟨line, _, rfl⟩ := List.mem_map.1 member
    rfl

theorem prints_performed (action : Action) (reply : action.Reply) :
    Prints [] [.performed action reply] := ⟨rfl, rfl⟩

namespace Attempt

/-- From `world` the attempt prints `lines` and comes to `result` in `last`. -/
def ComesTo (handler : Handler σ) (attempt : Attempt α) (world : σ) (lines : List String)
    (result : Except Fault α) (last : σ) : Prop :=
  ∃ events, attempt.Ends events (some result) ∧ handler.Replays world events last ∧
    Prints lines events

variable {handler : Handler σ} {attempt : Attempt α} {f : α → Attempt β} {world middle last : σ}
  {lines more : List String}

theorem ComesTo.bind {value : α} {result : Except Fault β}
    (first : attempt.ComesTo handler world lines (.ok value) middle)
    (second : (f value).ComesTo handler middle more result last) :
    (attempt >>= f).ComesTo handler world (lines ++ more) result last := by
  obtain ⟨before, ends, replays, prints⟩ := first
  obtain ⟨after, later_ends, later_replays, later_prints⟩ := second
  exact ⟨before ++ after, Succeeds.ends_bind ends later_ends,
    Handler.replays_append.2 ⟨middle, replays, later_replays⟩, prints.append later_prints⟩

theorem ComesTo.bind_error {fault : Fault}
    (first : attempt.ComesTo handler world lines (.error fault) last) :
    (attempt >>= f).ComesTo handler world lines (.error fault) last := by
  obtain ⟨events, ends, outcome⟩ := first
  refine ⟨events, ?_, outcome⟩
  unfold Ends
  rw [ExceptT.run_bind, ← List.append_nil events]
  exact Program.Trace.bind ends (.done _)

variable (handler world)

theorem comesTo_pure (value : α) :
    (pure value : Attempt α).ComesTo handler world [] (.ok value) world :=
  ⟨[], .done _, rfl, rfl, rfl⟩

theorem comesTo_throw (fault : Fault) :
    (throw fault : Attempt α).ComesTo handler world [] (.error fault) world :=
  ⟨[], .done _, rfl, rfl, rfl⟩

theorem comesTo_ofExcept (result : Except Fault α) :
    (ofExcept result).ComesTo handler world [] result world :=
  ⟨[], .done _, rfl, rfl, rfl⟩

theorem comesTo_sayAll (lines : List String) :
    (liftM (Program.sayAll lines) : Attempt Unit).ComesTo handler world lines (.ok ()) world := by
  refine ⟨_, succeeds_lift.2 (Program.trace_sayAll.2 rfl), ?_, prints_lines lines⟩
  rw [← List.append_nil (lines.map _), Handler.replays_lines]
  rfl

theorem comesTo_say (line : String) :
    (liftM (Program.say line) : Attempt Unit).ComesTo handler world [line] (.ok ()) world :=
  ⟨_, succeeds_lift.2 (Program.trace_say.2 rfl), rfl, prints_lines [line]⟩

/-- A pass over values comes to what the results of the parts come to. -/
theorem comesTo_forM {f : β → Attempt PUnit} {results : β → Except Fault PUnit}
    (each : ∀ value, ∃ lines, (f value).ComesTo handler world lines (results value) world)
    (values : List β) :
    ∃ lines, (values.forM f).ComesTo handler world lines (values.forM results) world := by
  induction values with
  | nil => exact ⟨[], comesTo_pure handler world _⟩
  | cons value rest ih =>
    obtain ⟨lines, first⟩ := each value
    obtain ⟨more, later⟩ := ih
    change ∃ lines, (f value >>= fun _ => rest.forM f).ComesTo handler world lines
      (results value >>= fun _ => rest.forM results) world
    cases ended : results value with
    | ok =>
      rw [ended] at first
      exact ⟨_, first.bind later⟩
    | error fault =>
      rw [ended] at first
      exact ⟨_, first.bind_error⟩

theorem comesTo_read (copy : RegisterCopy) :
    (read copy).ComesTo handler world [] (handler.answer (.read copy) world).1
      (handler.answer (.read copy) world).2 :=
  ⟨_, Program.trace_act.2 rfl, ⟨_, rfl, rfl⟩, prints_performed _ _⟩

variable {handler} in
/-- Where the channels take everything, the run comes to the result. -/
theorem ComesTo.run {run : Run σ} {result : Except Fault α} (unlimited : run.Unlimited)
    (comes : attempt.ComesTo handler run.world lines result last) :
    (attempt.run handler run).1 = result := by
  obtain ⟨events, ends, replays, _⟩ := comes
  obtain ⟨after, finished, _⟩ := Program.run_of_trace unlimited ends replays
  unfold Attempt.run
  rw [finished]

end Attempt
end PackagePower
