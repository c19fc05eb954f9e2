import PackagePower.Proofs.Device.Bench
import PackagePower.Proofs.Program.Outcome
import PackagePower.Proofs.Session.Watts
import PackagePower.Proofs.Text.Spelling

/-!
# Where questions and readings lead

With channels that take everything, a question comes to what the operator's line says, and a
reading to what the register holds. An answer that is no good, and a register that cannot be read,
lead back to the menu without another action.
-/

namespace PackagePower

variable {ω : Type}

/-- The lines given to `labels`, asked one after the other. -/
def Operator.lines (operator : Operator ω) : List String → ω → List (Option String)
  | [], _ => []
  | label :: rest, own => (operator.line label own).1 :: operator.lines rest (operator.line label own).2

/-- The line holds the answer between blanks, and the answer neither begins nor ends with one.
Nothing and the letter q are no answers. -/
def Answers (line : Option String) (answer : String) : Prop :=
  (∃ text before after, line = some text ∧ text.toList = before ++ answer.toList ++ after ∧
      Text.Blank before ∧ Text.Blank after ∧
      (∀ c ∈ answer.toList.head?, Text.isBlank c = false) ∧
      ∀ c ∈ answer.toList.getLast?, Text.isBlank c = false) ∧
    answer ≠ "" ∧ answer ≠ "q" ∧ answer ≠ "Q"

theorem answerOf_eq_some_iff {text answer : String} :
    Session.answerOf text = some answer ↔
      Text.trim text = answer ∧ answer ≠ "" ∧ answer ≠ "q" ∧ answer ≠ "Q" := by
  unfold Session.answerOf
  dsimp only
  split
  · rename_i canceled
    refine iff_of_false nofun ?_
    rintro ⟨rfl, some, lower, upper⟩
    rcases canceled with none | small | large
    · exact some none
    · exact lower small
    · exact upper large
  · rename_i given
    simp only [not_or] at given
    rw [Option.some.injEq]
    constructor
    · rintro rfl
      exact ⟨rfl, given⟩
    · rintro ⟨rfl, _⟩
      rfl

theorem trim_eq_iff {text answer : String} :
    Text.trim text = answer ↔ Text.trimChars text.toList = answer.toList := by
  rw [← String.toList_inj, Text.toList_trim]

theorem answers_iff {line : Option String} {answer : String} :
    Answers line answer ↔ line.bind Session.answerOf = some answer := by
  rw [Option.bind_eq_some_iff]
  simp only [answerOf_eq_some_iff, trim_eq_iff, Text.trimChars_eq_iff]
  constructor
  · rintro ⟨⟨text, before, after, said, between⟩, proper⟩
    exact ⟨text, said, ⟨before, after, between⟩, proper⟩
  · rintro ⟨text, said, ⟨before, after, between⟩, proper⟩
    exact ⟨⟨text, before, after, said, between⟩, proper⟩

theorem Answers.trim {line : Option String} {answer : String} (answers : Answers line answer) :
    Text.trim answer = answer := by
  obtain ⟨⟨_, _, _, _, _, _, _, first, last⟩, _⟩ := answers
  exact trim_eq_iff.2 (Text.trimChars_eq_self first last)

/-! ## Menus -/

/-- The answer is the number, in decimal, with or without a plus sign in front. -/
def Numbers (answer : String) (n : Nat) : Prop :=
  ∃ sign digits, answer.toList = sign ++ digits ∧ (sign = [] ∨ sign = ['+']) ∧ digits ≠ [] ∧
    Text.Spells 10 digits n

namespace Menu

/-- The number of each item is its own, and one that an answer may have. -/
structure Numbered (α : Type) [Menu α] : Prop where
  found : ∀ item : α, ofNumber? (number item) = some item
  fits : ∀ item : α, number item < UInt32.size

theorem pick?_eq_some_iff {α : Type} [Menu α] (numbered : Numbered α) {answer : String} {item : α} :
    pick? answer = some item ↔ Numbers answer (number item) := by
  have numeral : Numbers answer (number item) ↔
      Text.readNumeral 10 UInt32.size answer.toList = .ok (number item) := by
    rw [Text.readNumeral_eq_ok_iff ⟨by decide, by decide⟩ (by decide)]
    unfold Numbers
    simp only [numbered.fits item, and_true]
  rw [numeral]
  unfold pick?
  cases Text.readNumeral 10 UInt32.size answer.toList with
  | error detail => simp [Except.toOption]
  | ok n =>
    simp only [Except.toOption, Option.bind_some, Except.ok.injEq]
    constructor
    · intro found
      have same := List.find?_some found
      exact (of_decide_eq_true same).symm
    · rintro rfl
      exact numbered.found item

theorem numbered_target : Numbered WriteTarget where
  found := by rintro (_ | _ | _) <;> rfl
  fits := by rintro (_ | _ | _) <;> decide

theorem numbered_direction : Numbered SyncDirection where
  found := by rintro (_ | _) <;> rfl
  fits := by rintro (_ | _) <;> decide

end Menu

/-! ## Registers on a bench -/

namespace Bench

def Readable (bench : Bench) (copy : RegisterCopy) : Prop :=
  ∃ word, (bench.cell copy).read.1 = .ok word

theorem Readable.read_eq {bench : Bench} {copy : RegisterCopy} (readable : bench.Readable copy) :
    (bench.cell copy).read.1 = .ok (bench.value copy) := by
  obtain ⟨word, read⟩ := readable
  rw [read, Cell.read_eq_ok read]
  rfl

theorem error_of_not_readable {bench : Bench} {copy : RegisterCopy}
    (unreadable : ¬ bench.Readable copy) : ∃ fault, (bench.cell copy).read.1 = .error fault := by
  cases read : (bench.cell copy).read.1 with
  | ok word => exact (unreadable ⟨word, read⟩).elim
  | error fault => exact ⟨fault, rfl⟩

def afterRead (bench : Bench) (copy : RegisterCopy) : Bench := (station.read copy bench).2

theorem cell_afterRead {bench : Bench} {copy other : RegisterCopy} (apart : other ≠ copy) :
    (bench.afterRead copy).cell other = bench.cell other :=
  cell_withCell_other _ _ apart

theorem readable_afterRead {bench : Bench} {copy other : RegisterCopy} (apart : other ≠ copy) :
    (bench.afterRead copy).Readable other ↔ bench.Readable other := by
  unfold Readable
  rw [cell_afterRead apart]

theorem value_afterRead {bench : Bench} {copy other : RegisterCopy} (apart : other ≠ copy) :
    (bench.afterRead copy).value other = bench.value other :=
  congrArg Cell.value (cell_afterRead apart)

end Bench

namespace Session
open Attempt

variable (operator : Operator ω) (own : ω) (bench : Bench)

/-! ## Reading -/

theorem read_comesTo (copy : RegisterCopy) :
    (Attempt.read copy).ComesTo (operator.at Bench.station) (own, bench) []
      (bench.cell copy).read.1 (own, bench.afterRead copy) :=
  comesTo_read _ _ copy

theorem read_ok {copy : RegisterCopy} (readable : bench.Readable copy) :
    (Attempt.read copy).ComesTo (operator.at Bench.station) (own, bench) []
      (.ok (bench.value copy)) (own, bench.afterRead copy) :=
  readable.read_eq ▸ read_comesTo operator own bench copy

theorem read_error {copy : RegisterCopy} (unreadable : ¬ bench.Readable copy) :
    ∃ fault, (Attempt.read copy).ComesTo (operator.at Bench.station) (own, bench) []
      (.error fault) (own, bench.afterRead copy) := by
  obtain ⟨fault, failed⟩ := Bench.error_of_not_readable unreadable
  exact ⟨fault, failed ▸ read_comesTo operator own bench copy⟩

/-- The writes of new limits to registers as they are. -/
def limitWrites (first second : LimitUnits) (bench : Bench) (list : List RegisterCopy) :
    List PendingWrite :=
  list.map fun copy => limited first second (copy, bench.value copy)

theorem limitWrites_afterRead {first second : LimitUnits} {copy : RegisterCopy}
    {rest : List RegisterCopy} (apart : copy ∉ rest) :
    limitWrites first second (bench.afterRead copy) rest = limitWrites first second bench rest := by
  apply List.map_congr_left
  intro other member
  rw [Bench.value_afterRead (ne_of_mem_of_not_mem member apart)]

/-- Registers are read one after the other, so each read is of a register as it was found. -/
theorem readAll_ok {first second : LimitUnits} {list : List RegisterCopy} (nodup : list.Nodup)
    (readable : ∀ copy ∈ list, bench.Readable copy) :
    ∃ last, (list.mapM (limitWrite first second)).ComesTo (operator.at Bench.station) (own, bench) []
      (.ok (limitWrites first second bench list)) last := by
  induction list generalizing bench with
  | nil => exact ⟨_, comesTo_pure _ _ _⟩
  | cons copy rest ih =>
    obtain ⟨apart, later⟩ := List.nodup_cons.1 nodup
    obtain ⟨able, others⟩ := List.forall_mem_cons.1 readable
    have others : ∀ other ∈ rest, (bench.afterRead copy).Readable other := by
      intro other member
      exact (Bench.readable_afterRead (ne_of_mem_of_not_mem member apart)).2 (others other member)
    obtain ⟨last, rest_read⟩ := ih (bench.afterRead copy) later others
    rw [limitWrites_afterRead bench apart] at rest_read
    have first_read : (limitWrite first second copy).ComesTo (operator.at Bench.station)
        (own, bench) [] _ _ := (read_ok operator own bench able).bind (comesTo_pure _ _ _)
    rw [List.mapM_cons]
    exact ⟨last, first_read.bind (rest_read.bind (comesTo_pure _ _ _))⟩

theorem readAll_error {first second : LimitUnits} {list : List RegisterCopy} (nodup : list.Nodup)
    (unreadable : ¬ ∀ copy ∈ list, bench.Readable copy) :
    ∃ fault last, (list.mapM (limitWrite first second)).ComesTo (operator.at Bench.station)
      (own, bench) [] (.error fault) last := by
  induction list generalizing bench with
  | nil => exact (unreadable fun _ member => nomatch member).elim
  | cons copy rest ih =>
    obtain ⟨apart, later⟩ := List.nodup_cons.1 nodup
    rw [List.mapM_cons]
    by_cases able : bench.Readable copy
    · have others : ¬ ∀ other ∈ rest, (bench.afterRead copy).Readable other := by
        intro others
        apply unreadable
        rw [List.forall_mem_cons]
        refine ⟨able, fun other member => ?_⟩
        exact (Bench.readable_afterRead (ne_of_mem_of_not_mem member apart)).1 (others other member)
      obtain ⟨fault, last, failed⟩ := ih (bench.afterRead copy) later others
      have first_read : (limitWrite first second copy).ComesTo (operator.at Bench.station)
          (own, bench) [] _ _ := (read_ok operator own bench able).bind (comesTo_pure _ _ _)
      exact ⟨fault, last, first_read.bind failed.bind_error⟩
    · obtain ⟨fault, failed⟩ := read_error operator own bench able
      exact ⟨fault, _, failed.bind_error.bind_error⟩

/-! ## Asking -/

theorem ask_comesTo (label : String) :
    (liftM (ask label) : Attempt (Option String)).ComesTo (operator.at Bench.station) (own, bench)
      [] (.ok ((operator.line label own).1.bind answerOf)) ((operator.line label own).2, bench) :=
  ⟨_, succeeds_lift.2 (trace_ask.2 ⟨_, rfl, rfl⟩), ⟨_, rfl, rfl⟩, prints_performed _ _⟩

/-- What an answer comes to where watts are asked for. -/
def wattsOf : Option String → Except Fault (Option Binary64)
  | none => .ok none
  | some answer => do
    let watts ← Quantity.watts answer
    some <$> inRange (checkWatts mostWatts watts)

theorem askWatts_comesTo (label : String) :
    (askWatts label).ComesTo (operator.at Bench.station) (own, bench) []
      (wattsOf ((operator.line label own).1.bind answerOf)) ((operator.line label own).2, bench) := by
  unfold askWatts
  refine (ask_comesTo operator own bench label).bind ?_
  cases (operator.line label own).1.bind answerOf with
  | none => exact comesTo_pure _ _ _
  | some answer =>
    dsimp only
    simp only [map_ofExcept, ofExcept_bind]
    exact comesTo_ofExcept _ _ _

/-- The answer gives watts that a limit may be set to. -/
def GivesWatts (answer : String) (watts : Binary64) : Prop :=
  Binary64.ofText? answer = some watts ∧ ∃ x, watts.toRat? = some x ∧ 0 < x ∧ x ≤ 5000

theorem GivesWatts.read {answer : String} {watts : Binary64} (given : GivesWatts answer watts)
    (trimmed : Text.trim answer = answer) : Quantity.watts answer = .ok watts := by
  obtain ⟨found, x, value, _⟩ := given
  have finite : watts.isFinite = true := by
    cases watts with
    | finite => rfl
    | nan | infinite => cases value
  unfold Quantity.watts
  rw [trimmed, found]
  exact if_pos finite

theorem wattsOf_given {answer : String} {watts : Binary64} (given : GivesWatts answer watts)
    (trimmed : Text.trim answer = answer) : wattsOf (some answer) = .ok (some watts) := by
  unfold wattsOf
  dsimp only
  rw [given.read trimmed]
  change some <$> inRange (checkWatts mostWatts watts) = _
  rw [checkWatts_eq_ok_iff.2 given.2]
  rfl

theorem ofText?_of_watts {answer : String} {watts : Binary64}
    (read : Quantity.watts answer = .ok watts) :
    Binary64.ofText? (Text.trim answer) = some watts := by
  unfold Quantity.watts at read
  split at read
  · rename_i value found
    split at read
    · cases read
      exact found
    · cases read
  · cases read

theorem wattsOf_cases {answer : String} (trimmed : Text.trim answer = answer) :
    (∃ fault, wattsOf (some answer) = .error fault) ∨ ∃ watts, GivesWatts answer watts := by
  unfold wattsOf
  dsimp only
  cases read : Quantity.watts answer with
  | error fault => exact .inl ⟨fault, rfl⟩
  | ok watts =>
    cases checked : checkWatts mostWatts watts with
    | error cause =>
      refine .inl ⟨.range cause, ?_⟩
      change some <$> inRange (checkWatts mostWatts watts) = _
      rw [checked]
      rfl
    | ok found =>
      cases eq_of_checkWatts checked
      have text := ofText?_of_watts read
      rw [trimmed] at text
      exact .inr ⟨watts, text, checkWatts_eq_ok_iff.1 checked⟩

/-! ## Back to the menu -/

variable {σ : Type} {handler : Handler σ}

theorem canceled_comesTo (world : σ) :
    canceled.ComesTo handler world ["Canceled.", ""] (.ok .idle) world :=
  (comesTo_sayAll _ _ _).bind (comesTo_pure _ _ _)

theorem preview_comesTo (queue : List PendingWrite) (world : σ) :
    (preview queue).ComesTo handler world (queue.map PendingWrite.describe) (.ok (.confirm queue))
      world := by
  have shown : (preview queue).ComesTo handler world (queue.map PendingWrite.describe ++ [])
      (.ok (.confirm queue)) world := (comesTo_sayAll _ _ _).bind (comesTo_pure _ _ _)
  rwa [List.append_nil] at shown

/-- The attempt is canceled or comes to a fault, and only `told` is printed before. -/
def Declines (handler : Handler σ) (attempt : Attempt SessionState) (world : σ)
    (told : List String) : Prop :=
  ∃ last, attempt.ComesTo handler world (told ++ ["Canceled.", ""]) (.ok .idle) last ∨
    ∃ fault, attempt.ComesTo handler world told (.error fault) last

theorem canceled_declines (world : σ) : Declines handler canceled world [] :=
  ⟨world, .inl (canceled_comesTo world)⟩

theorem throw_declines (fault : Fault) (world : σ) : Declines handler (throw fault) world [] :=
  ⟨world, .inr ⟨fault, comesTo_throw _ _ _⟩⟩

section
variable {α : Type} {attempt : Attempt α} {f : α → Attempt SessionState} {world middle : σ}
  {told more : List String}

theorem Declines.bind {value : α} (first : attempt.ComesTo handler world told (.ok value) middle)
    (declined : Declines handler (f value) middle more) :
    Declines handler (attempt >>= f) world (told ++ more) := by
  obtain ⟨last, canceled | ⟨fault, failed⟩⟩ := declined
  · refine ⟨last, .inl ?_⟩
    rw [List.append_assoc]
    exact first.bind canceled
  · exact ⟨last, .inr ⟨fault, first.bind failed⟩⟩

theorem Declines.of_error {fault : Fault}
    (failed : attempt.ComesTo handler world told (.error fault) middle) :
    Declines handler (attempt >>= f) world told :=
  ⟨middle, .inr ⟨fault, failed.bind_error⟩⟩

end

/-- Watts are given, or their question is the last one. -/
theorem askWatts_cases (label : String) :
    (∃ text watts, Answers (operator.line label own).1 text ∧ GivesWatts text watts ∧
        (askWatts label).ComesTo (operator.at Bench.station) (own, bench) [] (.ok (some watts))
          ((operator.line label own).2, bench)) ∨
      ∀ f : Option Binary64 → Attempt SessionState, f none = canceled →
        Declines (operator.at Bench.station) (askWatts label >>= f) (own, bench) [] := by
  have asked := askWatts_comesTo operator own bench label
  cases answer : (operator.line label own).1.bind answerOf with
  | none =>
    rw [answer] at asked
    refine .inr fun f leaves => .bind asked ?_
    rw [leaves]
    exact canceled_declines _
  | some text =>
    have answers := answers_iff.2 answer
    rw [answer] at asked
    rcases wattsOf_cases answers.trim with ⟨fault, refused⟩ | ⟨watts, given⟩
    · rw [refused] at asked
      exact .inr fun _ _ => .of_error asked
    · rw [wattsOf_given given answers.trim] at asked
      exact .inl ⟨text, watts, answers, given, asked⟩

/-- An item is chosen, or its question is the last one. -/
theorem askItem_cases {α : Type} [Menu α] (label : String) (numbered : Menu.Numbered α) :
    (∃ text, ∃ item : α, Answers (operator.line label own).1 text ∧
        Numbers text (Menu.number item) ∧
        (liftM (ask label) : Attempt (Option String)).ComesTo (operator.at Bench.station) (own, bench)
          [] (.ok (some text)) ((operator.line label own).2, bench)) ∨
      ∀ f : Option String → Attempt SessionState, f none = canceled →
        (∀ text, (Menu.pick? text : Option α) = none → ∃ fault, f (some text) = throw fault) →
        Declines (operator.at Bench.station) (liftM (ask label) >>= f) (own, bench) [] := by
  have asked := ask_comesTo operator own bench label
  cases answer : (operator.line label own).1.bind answerOf with
  | none =>
    rw [answer] at asked
    refine .inr fun f leaves _ => .bind asked ?_
    rw [leaves]
    exact canceled_declines _
  | some text =>
    rw [answer] at asked
    cases picked : (Menu.pick? text : Option α) with
    | none =>
      refine .inr fun f _ unknown => .bind asked ?_
      obtain ⟨fault, thrown⟩ := unknown text picked
      rw [thrown]
      exact throw_declines _ _
    | some item =>
      exact .inl ⟨text, item, answers_iff.2 answer, (Menu.pick?_eq_some_iff numbered).1 picked, asked⟩

end Session
end PackagePower
