import PackagePower.Proofs.Snapshot

/-!
# Lines of a snapshot in any arrangement

A snapshot is read back from its lines in any order and among others: lines without a mark, lines
with another key, and lines with a key of its own as long as the line of that field is still to
come. What is read of a field is decided by the last line that has its key.
-/

namespace PackagePower.Snapshot
open Text (Blank)

/-! ## Lines -/

/-- The line of a field, with blanks around the key and around the value. -/
def Padded (field : String × String) (line : String) : Prop :=
  ∃ opening gap inset closing, Blank opening ∧ Blank gap ∧ Blank inset ∧ Blank closing ∧
    line.toList =
      (opening ++ field.1.toList ++ gap) ++ '=' :: (inset ++ field.2.toList ++ closing)

/-- What stands in front of the first mark of the line is the key, but for blanks around it. -/
def Names (line key : String) : Prop :=
  ∃ front behind, line.toList = front ++ '=' :: behind ∧ '=' ∉ front ∧
    Text.trimChars front = key.toList

theorem entry?_of_no_mark {line : List Char} (unmarked : '=' ∉ line) : entry? line = none := by
  unfold entry?
  rw [Text.span_unmarked unmarked]

theorem names_iff {line key : String} :
    Names line key ↔ ( entry? line.toList).map Prod.fst = some key.toList := by
  constructor
  · rintro ⟨front, behind, split, unmarked, named⟩
    rw [split, entry?_of_unmarked unmarked, named]
    rfl
  · intro found
    by_cases mark : '=' ∈ line.toList
    · obtain ⟨front, behind, split, unmarked⟩ := List.eq_append_cons_of_mem mark
      rw [split, entry?_of_unmarked unmarked] at found
      exact ⟨front, behind, split, unmarked, Option.some.inj found⟩
    · rw [entry?_of_no_mark mark] at found
      cases found

instance (line key : String) : Decidable (Names line key) := decidable_of_iff' _ names_iff

theorem Padded.entry_eq {field : String × String} {line : String} (padded : Padded field line)
    (legible : Legible field) : entry? line.toList = some (fieldEntry field) := by
  obtain ⟨opening, gap, inset, closing, opened, spaced, indented, closed, split⟩ := padded
  have unmarked : '=' ∉ opening ++ field.1.toList ++ gap := by
    have marked : Text.isBlank '=' ≠ true := by decide
    simp only [List.mem_append, not_or]
    exact ⟨⟨fun mark => marked (opened _ mark), legible.unmarked⟩,
      fun mark => marked (spaced _ mark)⟩
  rw [split, entry?_of_unmarked unmarked, legible.key.trimChars_between opened spaced,
    legible.value.trimChars_between indented closed]
  rfl

theorem Padded.names_iff {field : String × String} {line key : String}
    (padded : Padded field line) (legible : Legible field) : Names line key ↔ key = field.1 := by
  rw [Snapshot.names_iff, padded.entry_eq legible]
  simp [fieldEntry, String.toList_inj, eq_comm]

/-! ## Fields among lines -/

/-- The line of the field is there, and none below it has the same key. -/
def Shown (field : String × String) (lines : List String) : Prop :=
  ∃ above line below, lines = above ++ line :: below ∧ Padded field line ∧
    ∀ other ∈ below, ¬ Names other field.1

theorem Shown.cons {field : String × String} {lines : List String} (shown : Shown field lines)
    (line : String) : Shown field (line :: lines) := by
  obtain ⟨above, own, below, rfl, padded, last⟩ := shown
  exact ⟨line :: above, own, below, rfl, padded, last⟩

/-- The last line with a key has the say. -/
theorem Shown.valueOf_eq {field : String × String} {lines : List String}
    (shown : Shown field lines) (legible : Legible field) :
    valueOf ((lines.map String.toList).filterMap entry?) field.1 = .ok field.2.toList := by
  obtain ⟨above, line, below, rfl, padded, last⟩ := shown
  have others : ((below.map String.toList).filterMap entry?).reverse.find?
      (fun entry => decide (entry.1 = field.1.toList)) = none := by
    rw [List.find?_eq_none]
    intro entry member
    obtain ⟨chars, listed, found⟩ := List.mem_filterMap.1 (List.mem_reverse.1 member)
    obtain ⟨other, inside, rfl⟩ := List.mem_map.1 listed
    rw [decide_eq_true_iff]
    intro named
    apply last other inside
    rw [names_iff, found]
    exact congrArg some named
  unfold valueOf
  rw [List.map_append, List.filterMap_append, List.map_cons,
    List.filterMap_cons_some (padded.entry_eq legible), List.reverse_append, List.reverse_cons,
    List.append_assoc, List.find?_append, others]
  simp [fieldEntry]

/-! ## Arrangements -/

/-- The lines have the line of every field awaited once, in any order. Any other line can stand
among them that has no key, a key of no field, or that of a field still awaited. -/
inductive Arranged (snapshot : Snapshot) : List (String × String) → List String → Prop where
  | done : Arranged snapshot [] []
  | field {awaited : List (String × String)} {field : String × String} {line : String}
      {rest : List String} : field ∈ awaited → Padded field line →
      Arranged snapshot (awaited.erase field) rest → Arranged snapshot awaited (line :: rest)
  | other {awaited : List (String × String)} {line : String} {rest : List String} :
      (∀ field ∈ snapshot.fields, Names line field.1 → field ∈ awaited) →
      Arranged snapshot awaited rest → Arranged snapshot awaited (line :: rest)

/-- From the front: what is awaited is shown, and no line has the key of what is not. -/
theorem Arranged.shown {snapshot : Snapshot} {awaited : List (String × String)}
    {lines : List String} (arranged : Arranged snapshot awaited lines)
    (some_of : awaited.Sublist snapshot.fields) :
    (∀ field ∈ awaited, Shown field lines) ∧
      ∀ field ∈ snapshot.fields, field ∉ awaited → ∀ line ∈ lines, ¬ Names line field.1 := by
  induction arranged with
  | done => simp
  | @field awaited own line rest expected padded _ ih =>
    obtain ⟨later, gone⟩ := ih (List.erase_sublist.trans some_of)
    have given := some_of.subset expected
    have once : awaited.Nodup := (List.Nodup.of_map _ snapshot.distinct_fields).sublist some_of
    constructor
    · intro field member
      by_cases same : field = own
      · subst same
        exact ⟨[], line, rest, rfl, padded, gone field given once.not_mem_erase⟩
      · exact (later field ((List.mem_erase_of_ne same).2 member)).cons line
    · intro field member unawaited
      rw [List.forall_mem_cons]
      constructor
      · intro named
        have key := (padded.names_iff (snapshot.legible_fields own given)).1 named
        have same := List.inj_on_of_nodup_map snapshot.distinct_fields member given key
        exact unawaited (same ▸ expected)
      · exact gone field member fun inside => unawaited (List.mem_of_mem_erase inside)
  | @other awaited line rest allowed _ ih =>
    obtain ⟨later, gone⟩ := ih some_of
    constructor
    · intro field member
      exact (later field member).cons line
    · intro field member unawaited
      rw [List.forall_mem_cons]
      exact ⟨fun named => unawaited (allowed field member named), gone field member unawaited⟩

/-! ## Texts -/

theorem splitLines_whole {line : List Char} (whole : '\n' ∉ line) : splitLines line = [line] := by
  induction line with
  | nil => rfl
  | cons c line ih =>
    have later : '\n' ∉ line := fun member => whole (List.mem_cons_of_mem _ member)
    have other : c ≠ '\n' := by
      rintro rfl
      exact whole List.mem_cons_self
    rw [splitLines, ih later]
    exact other

theorem splitLines_intercalate {first : String} {rest : List String}
    (whole : ∀ line ∈ first :: rest, '\n' ∉ line.toList) :
    splitLines ("\n".intercalate (first :: rest)).toList = (first :: rest).map String.toList := by
  induction rest generalizing first with
  | nil => exact splitLines_whole (whole first List.mem_cons_self)
  | cons next rest ih =>
    have later := ih fun line member => whole line (List.mem_cons_of_mem _ member)
    have joined : ("\n".intercalate (first :: next :: rest)).toList =
        first.toList ++ '\n' :: ("\n".intercalate (next :: rest)).toList := by
      simp [String.intercalate_cons_cons]
    rw [joined, splitLines_line (whole first List.mem_cons_self), later]
    rfl

theorem entries_of_lines {lines : List String} (whole : ∀ line ∈ lines, '\n' ∉ line.toList) :
    (splitLines ("\n".intercalate lines).toList).filterMap entry? =
      (lines.map String.toList).filterMap entry? := by
  cases lines with
  | nil => rfl
  | cons first rest => rw [splitLines_intercalate whole]

/-- A snapshot is read back from its lines in any arrangement. -/
theorem parse_arranged {snapshot : Snapshot} {lines : List String}
    (whole : ∀ line ∈ lines, '\n' ∉ line.toList)
    (arranged : Arranged snapshot snapshot.fields lines) :
    ∃ watts, Binary64.ofText? (snapshot.wattsPerUnit.fixed 9) = some watts ∧
      parse ("\n".intercalate lines) = .ok { snapshot with wattsPerUnit := watts } := by
  refine ⟨_, Binary64.ofText?_fixed _ _, ?_⟩
  apply parse_of_values
  intro field member
  rw [entries_of_lines whole]
  obtain ⟨shown, _⟩ := arranged.shown (List.Sublist.refl _)
  exact (shown field member).valueOf_eq (snapshot.legible_fields field member)

/-- Two registers and an eighth of a watt. -/
def eighthWattSnapshot : Snapshot where
  exponent := 3
  wattsPerUnit := PowerUnit.eighthWatt.wattsPerUnit
  msr := 0x004284E800DF81B8#64
  mmio := 0x00DF81B800420000#64

def scatteredLines : List String :=
  ["noise", "=orphan", "EXTRA=1=2", "MSR = 0x10", "MMIO=0x00df81b800420000", "UNIT_WATTS==",
    " MSR\u3000=\t0x004284e800df81b8 \r", "POWER_UNIT= 3", "UNIT_WATTS=0.125000000", "MSR", ""]

/-- Out of order, between blanks and among other lines the snapshot is found. -/
theorem scattered_lines_are_read :
    (∀ line ∈ scatteredLines, '\n' ∉ line.toList) ∧
      Arranged eighthWattSnapshot eighthWattSnapshot.fields scatteredLines ∧
      parse ("\n".intercalate scatteredLines) = .ok eighthWattSnapshot := by
  have fields_eq : eighthWattSnapshot.fields = [("POWER_UNIT", "3"), ("UNIT_WATTS", "0.125000000"),
      ("MSR", "0x004284e800df81b8"), ("MMIO", "0x00df81b800420000")] := by decide +kernel
  have mmio : Padded ("MMIO", "0x00df81b800420000") "MMIO=0x00df81b800420000" :=
    ⟨[], [], [], [], by decide, by decide, by decide, by decide, rfl⟩
  have msr : Padded ("MSR", "0x004284e800df81b8") " MSR\u3000=\t0x004284e800df81b8 \r" :=
    ⟨[' '], ['\u3000'], ['\t'], [' ', '\r'], by decide, by decide, by decide, by decide, rfl⟩
  have exponent : Padded ("POWER_UNIT", "3") "POWER_UNIT= 3" :=
    ⟨[], [], [' '], [], by decide, by decide, by decide, by decide, rfl⟩
  have watts : Padded ("UNIT_WATTS", "0.125000000") "UNIT_WATTS=0.125000000" :=
    ⟨[], [], [], [], by decide, by decide, by decide, by decide, rfl⟩
  have whole : ∀ line ∈ scatteredLines, '\n' ∉ line.toList := by decide +kernel
  have arranged : Arranged eighthWattSnapshot eighthWattSnapshot.fields scatteredLines := by
    rw [fields_eq]
    apply Arranged.other (by rw [fields_eq]; decide +kernel)
    apply Arranged.other (by rw [fields_eq]; decide +kernel)
    apply Arranged.other (by rw [fields_eq]; decide +kernel)
    apply Arranged.other (by rw [fields_eq]; decide +kernel)
    apply Arranged.field (by decide +kernel) mmio
    apply Arranged.other (by rw [fields_eq]; decide +kernel)
    apply Arranged.field (by decide +kernel) msr
    apply Arranged.field (by decide +kernel) exponent
    apply Arranged.field (by decide +kernel) watts
    apply Arranged.other (by rw [fields_eq]; decide +kernel)
    apply Arranged.other (by rw [fields_eq]; decide +kernel)
    exact Arranged.done
  have shown_whole : Binary64.ofText? (eighthWattSnapshot.wattsPerUnit.fixed 9) =
      some eighthWattSnapshot.wattsPerUnit := by decide +kernel
  have read_back {snapshot : Snapshot} {text : String} {watts : Binary64}
      (read : parse text = .ok { snapshot with wattsPerUnit := watts })
      (same : watts = snapshot.wattsPerUnit) : parse text = .ok snapshot := by
    subst same
    exact read
  obtain ⟨watts, shown, read⟩ := parse_arranged whole arranged
  exact ⟨whole, arranged, read_back read (Option.some.inj (shown.symm.trans shown_whole))⟩

end PackagePower.Snapshot
