import Mathlib.Data.List.Nodup
import PackagePower.Program.Station
import PackagePower.Proofs.Binary64.Fixed
import PackagePower.Proofs.Program.Trace
import PackagePower.Proofs.Text.Solid
import PackagePower.Snapshot

/-!
# Snapshots read back

A rendered snapshot is read back field by field. The exponent and both registers come back as
they were. The watts of a unit are written with nine places and come back as the decimal shown,
so a unit is read back only if nine places show all of it.
-/

namespace PackagePower

-- Powers of whole numbers are core's, whatever else is imported.
attribute [local instance (1100)] instPowNat

namespace Binary64

theorem solid_signed (negative : Bool) {body : String} (solid : Text.Solid body) :
    Text.Solid (signed negative body) := by
  cases negative with
  | false => exact solid
  | true =>
    intro c member
    have split : c ∈ '-' :: body.toList := by simpa [signed] using member
    rcases List.mem_cons.1 split with rfl | behind
    · decide
    · exact solid c behind

theorem solid_fixed (places : Nat) (x : Binary64) : Text.Solid (x.fixed places) := by
  cases x with
  | nan =>
    change Text.Solid nanText
    decide
  | infinite negative =>
    have letters : Text.Solid infiniteText := by
      decide
    exact solid_signed negative letters
  | finite negative steps fits =>
    apply solid_signed
    apply Text.solid_ofList
    intro c member
    have padded : c = '.' ∨
        c ∈ Text.zeroPad (places + 1) (Nat.toDigits 10 (fixedUnits places steps)) := by
      rw [← Text.splitPlaces_append]
      rcases List.mem_append.1 member with whole | fraction
      · exact .inr (List.mem_append_left _ whole)
      · rcases List.mem_cons.1 fraction with point | fraction
        · exact .inl point
        · exact .inr (List.mem_append_right _ fraction)
    rcases padded with rfl | digit
    · decide
    · exact Text.isBlank_of_mem_zeroPad ⟨by decide, by decide⟩ digit

end Binary64

namespace Snapshot

/-! ## Lines and entries -/

theorem splitLines_line {line : List Char} (whole : '\n' ∉ line) (rest : List Char) :
    splitLines (line ++ '\n' :: rest) = line :: splitLines rest := by
  induction line with
  | nil => rfl
  | cons c line ih =>
    have later : '\n' ∉ line := fun member => whole (List.mem_cons_of_mem _ member)
    have other : c ≠ '\n' := by
      rintro rfl
      exact whole List.mem_cons_self
    rw [List.cons_append, splitLines, ih later]
    exact other

/-- Joined lines are split again, with nothing behind the last. -/
theorem splitLines_joinLines {lines : List String} (whole : ∀ line ∈ lines, '\n' ∉ line.toList) :
    splitLines (joinLines lines).toList = lines.map String.toList ++ [[]] := by
  induction lines with
  | nil => rfl
  | cons line rest ih =>
    have joined : (joinLines (line :: rest)).toList =
        line.toList ++ '\n' :: (joinLines rest).toList := by
      simp [joinLines]
    have later := ih fun other member => whole other (List.mem_cons_of_mem _ member)
    rw [joined, splitLines_line (whole line List.mem_cons_self), later]
    rfl

/-- A key and its value, as a line. -/
def fieldLine (field : String × String) : String := s!"{field.1}={field.2}"

/-- A key and its value, as an entry. -/
def fieldEntry (field : String × String) : List Char × List Char :=
  (field.1.toList, field.2.toList)

/-- The field can be told from its line. -/
structure Legible (field : String × String) : Prop where
  key : Text.Solid field.1
  unmarked : '=' ∉ field.1.toList
  value : Text.Solid field.2

theorem toList_fieldLine (field : String × String) :
    (fieldLine field).toList = field.1.toList ++ '=' :: field.2.toList := by
  change (field.1 ++ "=" ++ field.2).toList = _
  simp

theorem Legible.no_line_end {field : String × String} (legible : Legible field) :
    '\n' ∉ (fieldLine field).toList := by
  rw [toList_fieldLine, List.mem_append, List.mem_cons]
  rintro (inKey | mark | inValue)
  · exact legible.key.no_line_end inKey
  · cases mark
  · exact legible.value.no_line_end inValue

/-- A line is split at the first mark in it. -/
theorem entry?_of_unmarked {front : List Char} (unmarked : '=' ∉ front) (behind : List Char) :
    entry? (front ++ '=' :: behind) = some (Text.trimChars front, Text.trimChars behind) := by
  unfold entry?
  rw [Text.span_marked unmarked]

theorem Legible.entry_eq {field : String × String} (legible : Legible field) :
    entry? (fieldLine field).toList = some (fieldEntry field) := by
  rw [toList_fieldLine, entry?_of_unmarked legible.unmarked, legible.key.trimChars,
    legible.value.trimChars]
  rfl

theorem entries_of_fields {fields : List (String × String)}
    (legible : ∀ field ∈ fields, Legible field) :
    (splitLines (joinLines (fields.map fieldLine)).toList).filterMap entry? =
      fields.map fieldEntry := by
  have whole : ∀ line ∈ fields.map fieldLine, '\n' ∉ line.toList := by
    intro line member
    obtain ⟨field, given, rfl⟩ := List.mem_map.1 member
    exact (legible field given).no_line_end
  have last : ([[]] : List (List Char)).filterMap entry? = [] := rfl
  rw [splitLines_joinLines whole, List.filterMap_append, last, List.append_nil]
  clear whole
  induction fields with
  | nil => rfl
  | cons field rest ih =>
    have first := (legible field List.mem_cons_self).entry_eq
    simp only [List.map_cons, List.filterMap_cons, first,
      ih fun other member => legible other (List.mem_cons_of_mem _ member)]

/-- Where no key comes twice each has its own value. -/
theorem valueOf_fieldEntry {fields : List (String × String)} {key value : String}
    (distinct : (fields.map Prod.fst).Nodup) (member : (key, value) ∈ fields) :
    valueOf (fields.map fieldEntry) key = .ok value.toList := by
  unfold valueOf
  cases found : (fields.map fieldEntry).reverse.find?
      (fun entry => decide (entry.1 = key.toList)) with
  | none =>
    have missing := List.find?_eq_none.1 found (fieldEntry (key, value))
      (List.mem_reverse.2 (List.mem_map_of_mem member))
    exact (missing (decide_eq_true rfl)).elim
  | some entry =>
    have sought := List.find?_some found
    have inside := List.mem_reverse.1 (List.mem_of_find?_eq_some found)
    obtain ⟨⟨other, kept⟩, given, rfl⟩ := List.mem_map.1 inside
    have same : other = key := String.toList_inj.1 (of_decide_eq_true sought)
    subst same
    have one := List.inj_on_of_nodup_map distinct given member rfl
    cases one
    rfl

/-! ## Fields of a snapshot -/

/-- The fields of a snapshot, in the order they are written in. -/
def fields (snapshot : Snapshot) : List (String × String) :=
  [(exponentKey, Text.decimal snapshot.exponent.toNat), (wattsKey, snapshot.wattsPerUnit.fixed 9),
    (msrKey, snapshot.msr.text), (mmioKey, snapshot.mmio.text)]

theorem render_eq (snapshot : Snapshot) :
    snapshot.render = joinLines (snapshot.fields.map fieldLine) := rfl

theorem distinct_fields (snapshot : Snapshot) : (snapshot.fields.map Prod.fst).Nodup := by
  change [exponentKey, wattsKey, msrKey, mmioKey].Nodup
  decide

theorem legible_fields (snapshot : Snapshot) : ∀ field ∈ snapshot.fields, Legible field := by
  have keys : ∀ key ∈ [exponentKey, wattsKey, msrKey, mmioKey],
      Text.Solid key ∧ '=' ∉ key.toList := by
    decide
  have values : ∀ value ∈ snapshot.fields.map Prod.snd, Text.Solid value := by
    simp [fields, Text.solid_decimal, Binary64.solid_fixed, Word.solid_text]
  intro field member
  obtain ⟨key, unmarked⟩ := keys field.1 (List.mem_map_of_mem (f := Prod.fst) member)
  exact ⟨key, unmarked, values field.2 (List.mem_map_of_mem member)⟩

theorem readExponent?_decimal (exponent : BitVec 8) :
    readExponent? (Text.decimal exponent.toNat).toList = some exponent := by
  have read : Text.readNumeral 10 UInt8.size (Text.decimal exponent.toNat).toList =
      .ok exponent.toNat := Text.readNumeral_decimal exponent.isLt
  unfold readExponent?
  rw [read]
  simp [Except.toOption]

theorem readWord?_text (value : Word) : readWord? value.text.toList = some value := by
  have read : Text.readNumeral 16 UInt64.size (Text.zeroPad 16 (Nat.toDigits 16 value.toNat)) =
      .ok value.toNat := Text.readNumeral_zeroPad ⟨by decide, by decide⟩ value.isLt 16
  unfold readWord?
  rw [Word.toList_text]
  simp only [Text.stripHexMark?, Word.digits, read]
  simp [Except.toOption]

theorem field_eq_ok {α : Type} {entries : List (List Char × List Char)} {key value : String}
    {read : List Char → Option α} {result : α} (held : valueOf entries key = .ok value.toList)
    (understood : read value.toList = some result) : field entries key read = .ok result := by
  unfold field
  rw [held]
  dsimp only [bind, Except.bind]
  rw [understood]

/-- Where each field has its value, a snapshot is read up to the places that its watts are written
with. -/
theorem parse_of_values {snapshot : Snapshot} {text : String}
    (held : ∀ field ∈ snapshot.fields,
      valueOf ((splitLines text.toList).filterMap entry?) field.1 = .ok field.2.toList) :
    parse text = .ok { snapshot with wattsPerUnit := snapshot.wattsPerUnit.throughPlaces 9 } := by
  simp only [fields, List.forall_mem_cons] at held
  obtain ⟨exponent, watts, msr, mmio, -⟩ := held
  have places : readWatts? (snapshot.wattsPerUnit.fixed 9).toList =
      some (snapshot.wattsPerUnit.throughPlaces 9) := by
    rw [readWatts?, String.ofList_toList, Binary64.ofText?_fixed]
  unfold parse
  simp only [field_eq_ok exponent (readExponent?_decimal snapshot.exponent),
    field_eq_ok watts places, field_eq_ok msr (readWord?_text snapshot.msr),
    field_eq_ok mmio (readWord?_text snapshot.mmio)]
  rfl

/-- A snapshot is read back up to the places that its watts are written with. -/
theorem parse_render (snapshot : Snapshot) :
    parse snapshot.render =
      .ok { snapshot with wattsPerUnit := snapshot.wattsPerUnit.throughPlaces 9 } := by
  apply parse_of_values
  intro field member
  rw [render_eq, entries_of_fields snapshot.legible_fields]
  exact valueOf_fieldEntry snapshot.distinct_fields member

/-! ## Units that nine places show -/

theorem parse_render_eq_iff (snapshot : Snapshot) :
    parse snapshot.render = .ok snapshot ↔
      snapshot.wattsPerUnit.throughPlaces 9 = snapshot.wattsPerUnit := by
  obtain ⟨exponent, watts, msr, mmio⟩ := snapshot
  simp [parse_render]

/-- Nine places show the binary fractions down to `2 ^ -9`, and of smaller ones not the end. -/
theorem throughPlaces_wattsPerUnit_iff {unit : PowerUnit} (small : unit.power.toNat < 16) :
    unit.wattsPerUnit.throughPlaces 9 = unit.wattsPerUnit ↔ unit.power.toNat ≤ 9 := by
  have each : ∀ e : Fin 16, (Binary64.ofRatio false 1 (2 ^ e.val)).throughPlaces 9 =
      .ofRatio false 1 (2 ^ e.val) ↔ e.val ≤ 9 := by decide +kernel
  exact each ⟨unit.power.toNat, small⟩

theorem power_decode_lt (raw : Word) : (PowerUnit.decode raw).power.toNat < 16 := by
  change ((raw.extractLsb' 0 4).setWidth 8).toNat < 16
  have narrow := (raw.extractLsb' 0 4).isLt
  rw [BitVec.toNat_setWidth]
  omega

section
variable {σ : Type} (handler : Handler σ) (run : Run σ) {msr mmio : Word} {middle last : σ}

/-- Where both registers can be read a snapshot is captured. -/
theorem capture_run (unit : PowerUnit)
    (first : handler.answer (.read .msr) run.world = (.ok msr, middle))
    (second : handler.answer (.read .mmio) middle = (.ok mmio, last)) :
    ∃ after, (capture unit).run handler run =
      (.ok { exponent := unit.power, wattsPerUnit := unit.wattsPerUnit, msr, mmio }, after) := by
  have once := Run.performed_of_answer first
  have twice : ({ run with world := middle }.record (.performed (.read .msr) (.ok msr))).performed
      handler (.read .mmio) = _ := Run.performed_of_answer second
  refine ⟨_, Prod.ext ?_ rfl⟩
  unfold Attempt.run capture Attempt.read
  simp only [ExceptT.run_bind, ExceptT.run_mk, Program.perform_bind, Program.done_bind, Program.run,
    once, twice]
  rfl

/-- A captured snapshot is read back exactly where nine places show the unit. -/
theorem parse_render_iff (raw : Word)
    (first : handler.answer (.read .msr) run.world = (.ok msr, middle))
    (second : handler.answer (.read .mmio) middle = (.ok mmio, last)) :
    ∃ snapshot after, (capture (PowerUnit.decode raw)).run handler run = (.ok snapshot, after) ∧
      parse snapshot.render =
        .ok { snapshot with wattsPerUnit := snapshot.wattsPerUnit.throughPlaces 9 } ∧
      (parse snapshot.render = .ok snapshot ↔ (PowerUnit.decode raw).power.toNat ≤ 9) := by
  obtain ⟨after, captured⟩ := capture_run handler run (PowerUnit.decode raw) first second
  refine ⟨_, after, captured, parse_render _, ?_⟩
  rw [parse_render_eq_iff, throughPlaces_wattsPerUnit_iff (power_decode_lt raw)]

end

/-- Two registers that can be read, and nobody asked. -/
def twoRegisters (msr mmio : Word) : Run (Script × Bench) where
  world := (⟨[], []⟩,
    { msr := { place := "MSR", value := msr }
      mmio := { place := "MMIO", value := mmio }
      zone := ⟨⟨"", []⟩⟩
      host := .empty })

def twoRegistersCapture (raw msr mmio : Word) : Except Fault Snapshot :=
  ((capture (PowerUnit.decode raw)).run (Script.operator.at Bench.station)
    (twoRegisters msr mmio)).1

/-- Of an eighth of a watt three places are enough. -/
theorem eighth_watt_is_read_back :
    ∃ snapshot, twoRegistersCapture 0xA0E03#64 0x00428640009B8578#64 0x8042864000DD8578#64 =
        .ok snapshot ∧
      parse snapshot.render = .ok snapshot := by
  obtain ⟨snapshot, after, captured, _, exact⟩ :=
    parse_render_iff (Script.operator.at Bench.station)
      (twoRegisters 0x00428640009B8578#64 0x8042864000DD8578#64) 0xA0E03#64 rfl rfl
  refine ⟨snapshot, ?_, exact.2 (by decide)⟩
  unfold twoRegistersCapture
  rw [captured]

/-- The tenth place of `2 ^ -10` is lost. -/
theorem small_unit_is_not_read_back :
    ∃ snapshot, twoRegistersCapture 0xA0E0A#64 0x00428640009B8578#64 0x8042864000DD8578#64 =
        .ok snapshot ∧
      snapshot.render =
        "POWER_UNIT=10\nUNIT_WATTS=0.000976562\nMSR=0x00428640009b8578\nMMIO=0x8042864000dd8578\n" ∧
      parse snapshot.render ≠ .ok snapshot := by
  refine ⟨_, rfl, by decide +kernel, ?_⟩
  rw [Ne, parse_render_eq_iff, throughPlaces_wattsPerUnit_iff (power_decode_lt 0xA0E0A#64)]
  decide

end Snapshot
end PackagePower
