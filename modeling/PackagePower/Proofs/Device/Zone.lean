import PackagePower.Device.Zone
import PackagePower.Proofs.Host.Update
import PackagePower.Proofs.Text.Solid

/-!
# Writing both constraints or neither

The second constraint is written last, and where that fails the first gets back the number it
had. So a write of both does all or nothing to the numbers read, although a first constraint that
was put back may be spelt differently.
-/

namespace PackagePower.Zone

-- Powers of whole numbers are core's, whatever else is imported.
attribute [local instance (1100)] instPowNat

variable {zone : Zone} {host half : Host} {file : FileId}

theorem constraint_injective {index other : LimitIndex}
    (same : (zone.constraint index).names = (zone.constraint other).names) : index = other := by
  have last : [constraintName index] = [constraintName other] := List.append_cancel_left same
  have names : constraintName index = constraintName other := List.head_eq_of_cons_eq last
  cases index <;> cases other <;> first | rfl | exact absurd names (by decide)

/-! ## One constraint -/

theorem readConstraint_eq_ok_iff {index : LimitIndex} {value : UInt64} :
    zone.readConstraint host index = .ok value ↔
      ∃ text, host.readText (zone.constraint index).names = .ok text ∧
        Text.readNumeral 10 UInt64.size (Text.trimChars text.toList) = .ok value.toNat := by
  unfold readConstraint
  dsimp only
  cases read : host.readText (zone.constraint index).names with
  | error cause => simp
  | ok text =>
    cases given : Text.readNumeral 10 UInt64.size (Text.trimChars text.toList) with
    | error detail => simp [given]
    | ok n =>
      have small : n < UInt64.size := Text.readNumeral_lt (by decide) given
      have back : (UInt64.ofNat n).toNat = n := UInt64.toNat_ofNat_of_lt small
      simp only [Except.ok.injEq, exists_eq_left', given]
      constructor
      · intro same
        rw [← same, back]
      · intro same
        rw [same, UInt64.ofNat_toNat]

/-- The file of a constraint holds `value`. -/
def holding (host : Host) (file : FileId) (value : UInt64) : Host :=
  host.update file fun _ => .ofText (Text.decimal value.toNat)

theorem handle?_holding {names : List String} {handle : Handle} (file : FileId) (value : UInt64)
    (stands : host.handle? names = some handle) :
    (holding host file value).handle? names = some handle := stands

theorem writeConstraint_of_file {index : LimitIndex}
    (stands : host.handle? (zone.constraint index).names = some (.file file)) (value : UInt64) :
    zone.writeConstraint host index value = .ok (holding host file value) := by
  unfold writeConstraint
  dsimp only
  rw [Host.writeText_of_file stands]
  rfl

theorem file_of_writeConstraint {index : LimitIndex} {value : UInt64} {after : Host}
    (wrote : zone.writeConstraint host index value = .ok after) :
    ∃ file, host.handle? (zone.constraint index).names = some (.file file) := by
  unfold writeConstraint at wrote
  dsimp only at wrote
  cases written : host.writeText (zone.constraint index).names (Text.decimal value.toNat) with
  | error cause =>
    rw [written] at wrote
    cases wrote
  | ok left =>
    obtain ⟨file, stands, _⟩ := Host.file_of_writeText written
    exact ⟨file, stands⟩

theorem readConstraint_holding {index : LimitIndex}
    (stands : host.handle? (zone.constraint index).names = some (.file file)) (value : UInt64) :
    zone.readConstraint (holding host file value) index = .ok value := by
  rw [readConstraint_eq_ok_iff]
  refine ⟨_, Host.readText_written stands _, ?_⟩
  rw [(Text.solid_decimal _).trimChars]
  exact Text.readNumeral_decimal value.toNat_lt

theorem readConstraint_congr {after : Host} {index : LimitIndex}
    (same : after.readText (zone.constraint index).names =
      host.readText (zone.constraint index).names) :
    zone.readConstraint after index = zone.readConstraint host index := by
  unfold readConstraint
  dsimp only
  rw [same]

theorem read_congr {after : Host}
    (same : ∀ index, zone.readConstraint after index = zone.readConstraint host index) :
    zone.read after = zone.read host := by
  unfold read
  rw [same, same]

theorem readConstraint_apart {index : LimitIndex} {value : UInt64}
    (apart : (zone.constraint index).names ≠ file.names) :
    zone.readConstraint (holding host file value) index = zone.readConstraint host index :=
  readConstraint_congr (Host.readText_update apart)

theorem names_apart {index other : LimitIndex} (apart : index ≠ other)
    (stands : host.handle? (zone.constraint other).names = some (.file file)) :
    (zone.constraint index).names ≠ file.names := by
  rw [Host.names_of_handle? stands]
  intro same
  exact apart (constraint_injective same)

/-! ## Files that refuse -/

/-- A file that refuses a number is as it was, one that takes a number holds the whole of it, and
one that has just taken a number takes the next. -/
structure Takes (zone : Zone) (store : Store) : Prop where
  whole : ∀ {host after : Host} {index : LimitIndex} {value : UInt64},
    store host index value = .ok after → zone.writeConstraint host index value = .ok after
  again : ∀ {host after : Host} {index : LimitIndex} {value : UInt64},
    store host index value = .ok after → ∀ next, ∃ left, store after index next = .ok left

theorem takes_writeConstraint (zone : Zone) : zone.Takes zone.writeConstraint where
  whole stored := stored
  again := by
    intro host after index value stored next
    obtain ⟨file, stands⟩ := file_of_writeConstraint stored
    rw [writeConstraint_of_file stands] at stored
    cases stored
    exact ⟨_, writeConstraint_of_file (handle?_holding file value stands) next⟩

/-- The files of some constraints refuse every number, although they are there. -/
def refusing (zone : Zone) (refuses : LimitIndex → Bool) : Store := fun host index value =>
  if refuses index then .error (.transfer .write (zone.constraint index).text .refused)
  else zone.writeConstraint host index value

theorem takes_refusing (zone : Zone) (refuses : LimitIndex → Bool) :
    zone.Takes (zone.refusing refuses) := by
  have taken {host after : Host} {index : LimitIndex} {value : UInt64}
      (stored : zone.refusing refuses host index value = .ok after) :
      refuses index = false ∧ zone.writeConstraint host index value = .ok after := by
    unfold refusing at stored
    split at stored
    · cases stored
    · rename_i able
      exact ⟨eq_false_of_ne_true able, stored⟩
  refine ⟨fun stored => (taken stored).2, ?_⟩
  intro host after index value stored next
  obtain ⟨able, wrote⟩ := taken stored
  obtain ⟨left, again⟩ := (takes_writeConstraint zone).again wrote next
  refine ⟨left, ?_⟩
  unfold refusing
  rw [able]
  exact again

/-! ## Both constraints -/

/-- What a write of both constraints comes to. -/
inductive Wrote (zone : Zone) (store : Store) (host : Host) (limits : ZoneLimits) :
    Except Fault Unit × Host → Prop where
  /-- A limit is zero, the first constraint has no number, or its file refuses. -/
  | refused (fault : Fault) :
      (limits.first ≠ 0 → limits.second ≠ 0 →
        ∀ value half, zone.readConstraint host .first = .ok value →
          store host .first limits.first ≠ .ok half) →
      Wrote zone store host limits (.error fault, host)
  /-- The file of the second constraint refuses. -/
  | undone {previous : UInt64} {first : FileId} (fault : Fault) :
      zone.readConstraint host .first = .ok previous →
      host.handle? (zone.constraint .first).names = some (.file first) →
      store host .first limits.first = .ok (holding host first limits.first) →
      store (holding host first limits.first) .second limits.second = .error fault →
      Wrote zone store host limits
        (.error fault, holding (holding host first limits.first) first previous)
  | both {previous : UInt64} {first second : FileId} :
      limits.first ≠ 0 → limits.second ≠ 0 →
      zone.readConstraint host .first = .ok previous →
      host.handle? (zone.constraint .first).names = some (.file first) →
      host.handle? (zone.constraint .second).names = some (.file second) →
      store host .first limits.first = .ok (holding host first limits.first) →
      store (holding host first limits.first) .second limits.second =
        .ok (holding (holding host first limits.first) second limits.second) →
      Wrote zone store host limits
        (.ok (), holding (holding host first limits.first) second limits.second)

variable {store : Store}

theorem Takes.holding (takes : zone.Takes store) {index : LimitIndex} {value : UInt64}
    {after : Host} (stored : store host index value = .ok after) :
    ∃ file, host.handle? (zone.constraint index).names = some (.file file) ∧
      after = Zone.holding host file value := by
  have wrote := takes.whole stored
  obtain ⟨file, stands⟩ := file_of_writeConstraint wrote
  rw [writeConstraint_of_file stands] at wrote
  exact ⟨file, stands, (Except.ok.inj wrote).symm⟩

theorem writeWith_wrote (takes : zone.Takes store) (host : Host) (limits : ZoneLimits) :
    Wrote zone store host limits (zone.writeWith host store limits) := by
  unfold writeWith
  split
  · rename_i zero
    refine .refused _ ?_
    intro first second
    rcases zero with none_first | none_second
    · exact (first none_first).elim
    · exact (second none_second).elim
  rename_i positive
  obtain ⟨positive₁, positive₂⟩ := not_or.1 positive
  cases read : zone.readConstraint host .first with
  | error fault =>
    refine .refused fault ?_
    intro _ _ value half same
    rw [read] at same
    cases same
  | ok previous =>
    dsimp only
    cases stored₁ : store host .first limits.first with
    | error fault =>
      refine .refused fault ?_
      intro _ _ value half _ same
      rw [stored₁] at same
      cases same
    | ok half =>
      obtain ⟨first, stands₁, rfl⟩ := takes.holding stored₁
      dsimp only
      cases stored₂ : store (holding host first limits.first) .second limits.second with
      | ok whole =>
        obtain ⟨second, stands₂, rfl⟩ := takes.holding stored₂
        exact .both positive₁ positive₂ read stands₁ stands₂ stored₁ stored₂
      | error fault =>
        -- The first file has just taken a number, so its undoing cannot fail.
        obtain ⟨left, again⟩ := takes.again stored₁ previous
        obtain ⟨file, stands, rfl⟩ := takes.holding again
        cases stands.symm.trans (handle?_holding first limits.first stands₁)
        dsimp only
        rw [again]
        exact .undone fault read stands₁ stored₁ stored₂

theorem write_wrote (zone : Zone) (host : Host) (limits : ZoneLimits) :
    Wrote zone zone.writeConstraint host limits (zone.write host limits) :=
  writeWith_wrote (takes_writeConstraint zone) host limits

namespace Wrote
variable {limits : ZoneLimits} {answer : Except Fault Unit × Host}

theorem ok_iff (wrote : Wrote zone store host limits answer) :
    answer.1 = .ok () ↔
      limits.first ≠ 0 ∧ limits.second ≠ 0 ∧
        (∃ value, zone.readConstraint host .first = .ok value) ∧
        ∃ half whole, store host .first limits.first = .ok half ∧
          store half .second limits.second = .ok whole := by
  cases wrote with
  | refused fault reason =>
    constructor
    · intro impossible
      cases impossible
    · intro able
      obtain ⟨first, second, ⟨value, read⟩, half, _, stored, _⟩ := able
      exact (reason first second value half read stored).elim
  | undone fault read stands stored₁ stored₂ =>
    constructor
    · intro impossible
      cases impossible
    · intro able
      obtain ⟨_, _, _, half, whole, stored, landed⟩ := able
      cases stored₁.symm.trans stored
      rw [stored₂] at landed
      cases landed
  | both first second read stands₁ stands₂ stored₁ stored₂ =>
    exact ⟨fun _ => ⟨first, second, ⟨_, read⟩, _, _, stored₁, stored₂⟩, fun _ => rfl⟩

theorem read_eq (wrote : Wrote zone store host limits answer) (landed : answer.1 = .ok ()) :
    zone.read answer.2 = .ok limits := by
  cases wrote with
  | refused | undone => cases landed
  | @both previous first second _ _ _ stands₁ stands₂ _ _ =>
    have apart : (zone.constraint .first).names ≠ second.names := names_apart (by decide) stands₂
    have read₁ : zone.readConstraint
        (holding (holding host first limits.first) second limits.second) .first = .ok limits.first := by
      rw [readConstraint_apart apart]
      exact readConstraint_holding stands₁ _
    have read₂ := readConstraint_holding (handle?_holding first limits.first stands₂) limits.second
    unfold read
    rw [read₁, read₂]
    rfl

theorem undoes (wrote : Wrote zone store host limits answer) {fault : Fault}
    (failed : answer.1 = .error fault) :
    (∀ index, zone.readConstraint answer.2 index = zone.readConstraint host index) ∧
      answer.2.find? (zone.constraint .second).names =
        host.find? (zone.constraint .second).names := by
  cases wrote with
  | refused => exact ⟨fun _ => rfl, rfl⟩
  | @undone previous first _ read stands _ _ =>
    have apart : (zone.constraint .second).names ≠ first.names := names_apart (by decide) stands
    refine ⟨?_, ?_⟩
    · intro index
      cases index with
      | first =>
        rw [read]
        exact readConstraint_holding (handle?_holding first limits.first stands) previous
      | second => rw [readConstraint_apart apart, readConstraint_apart apart]
    · unfold holding
      rw [Host.find?_update_apart apart, Host.find?_update_apart apart]
  | both => cases failed

theorem handle?_eq (wrote : Wrote zone store host limits answer) (names : List String) :
    answer.2.handle? names = host.handle? names := by
  cases wrote <;> rfl

theorem find?_elsewhere (wrote : Wrote zone store host limits answer) {names : List String}
    (elsewhere : ∀ index, names ≠ (zone.constraint index).names) :
    answer.2.find? names = host.find? names := by
  have apart {index : LimitIndex} {file : FileId}
      (stands : host.handle? (zone.constraint index).names = some (.file file)) :
      names ≠ file.names := by
    rw [Host.names_of_handle? stands]
    exact elsewhere index
  cases wrote with
  | refused => rfl
  | undone fault read stands _ _ =>
    unfold holding
    rw [Host.find?_update_apart (apart stands), Host.find?_update_apart (apart stands)]
  | both _ _ read stands₁ stands₂ _ _ =>
    unfold holding
    rw [Host.find?_update_apart (apart stands₂), Host.find?_update_apart (apart stands₁)]

theorem contents_elsewhere (wrote : Wrote zone store host limits answer)
    (elsewhere : ∀ index, file.names ≠ (zone.constraint index).names) :
    answer.2.contents file = host.contents file := by
  have apart {index : LimitIndex} {other : FileId}
      (stands : host.handle? (zone.constraint index).names = some (.file other)) :
      file.names ≠ other.names := by
    rw [Host.names_of_handle? stands]
    exact elsewhere index
  cases wrote with
  | refused => rfl
  | undone fault read stands _ _ =>
    unfold holding
    rw [Host.contents_apart (apart stands), Host.contents_apart (apart stands)]
  | both _ _ read stands₁ stands₂ _ _ =>
    unfold holding
    rw [Host.contents_apart (apart stands₂), Host.contents_apart (apart stands₁)]

end Wrote

/-- Whatever refuses, both constraints are written or either reads as before. -/
theorem writeWith_all_or_nothing (takes : zone.Takes store) (host : Host) (limits : ZoneLimits) :
    ((zone.writeWith host store limits).1 = .ok () ↔
      limits.first ≠ 0 ∧ limits.second ≠ 0 ∧
        (∃ value, zone.readConstraint host .first = .ok value) ∧
        ∃ half whole, store host .first limits.first = .ok half ∧
          store half .second limits.second = .ok whole) ∧
      ((zone.writeWith host store limits).1 = .ok () →
        zone.read (zone.writeWith host store limits).2 = .ok limits) ∧
      (∀ fault, (zone.writeWith host store limits).1 = .error fault →
        (∀ index, zone.readConstraint (zone.writeWith host store limits).2 index =
          zone.readConstraint host index) ∧
        (zone.writeWith host store limits).2.find? (zone.constraint .second).names =
          host.find? (zone.constraint .second).names) ∧
      (∀ names, (zone.writeWith host store limits).2.handle? names = host.handle? names) ∧
      ∀ names, (∀ index, names ≠ (zone.constraint index).names) →
        (zone.writeWith host store limits).2.find? names = host.find? names := by
  have wrote := writeWith_wrote takes host limits
  refine ⟨wrote.ok_iff, wrote.read_eq, ?_, wrote.handle?_eq, ?_⟩
  · intro fault failed
    exact wrote.undoes failed
  · intro names elsewhere
    exact wrote.find?_elsewhere elsewhere

/-- A zone with 100 and 120 watts. -/
def hundredWatts : Host :=
  let placed := Host.empty.create ["constraint_0_power_limit_uw"] (.file (.ofText "100000000"))
  placed.create ["constraint_1_power_limit_uw"] (.file (.ofText "120000000"))

-- The second file is there and refuses, so the first gets back what it had.
example :
    let zone : Zone := ⟨⟨"", []⟩⟩
    let answer := zone.writeWith hundredWatts (zone.refusing (· = .second)) ⟨45000000, 65000000⟩
    answer.1.toOption = none ∧ (zone.read answer.2).toOption = some ⟨100000000, 120000000⟩ := by
  decide +kernel

/-- What has a number is a file, so both are taken where the second constraint is a file too. -/
theorem exists_stores_iff {value : UInt64} (read : zone.readConstraint host .first = .ok value)
    (limits : ZoneLimits) :
    (∃ half whole, zone.writeConstraint host .first limits.first = .ok half ∧
        zone.writeConstraint half .second limits.second = .ok whole) ↔
      ∃ file, host.handle? (zone.constraint .second).names = some (.file file) := by
  constructor
  · rintro ⟨half, whole, stored₁, stored₂⟩
    obtain ⟨first, _, rfl⟩ := (takes_writeConstraint zone).holding stored₁
    obtain ⟨second, stands₂⟩ := file_of_writeConstraint stored₂
    exact ⟨second, stands₂⟩
  · rintro ⟨second, stands₂⟩
    obtain ⟨text, shown, _⟩ := readConstraint_eq_ok_iff.1 read
    obtain ⟨first, stands₁, _⟩ := Host.readText_eq_ok_iff.1 shown
    exact ⟨_, _, writeConstraint_of_file stands₁ _,
      writeConstraint_of_file (handle?_holding first limits.first stands₂) _⟩

/-- Both constraints are written, or either reads as before; and nothing comes or goes. -/
theorem write_all_or_nothing (zone : Zone) (host : Host) (limits : ZoneLimits) :
    ((zone.write host limits).1 = .ok () ↔
      limits.first ≠ 0 ∧ limits.second ≠ 0 ∧
        (∃ text n, host.readText (zone.constraint .first).names = .ok text ∧
          Text.readNumeral 10 UInt64.size (Text.trimChars text.toList) = .ok n) ∧
        ∃ handle, host.openNode (zone.constraint .second).names .readWrite = .ok handle) ∧
      ((zone.write host limits).1 = .ok () → zone.read (zone.write host limits).2 = .ok limits) ∧
      (∀ fault, (zone.write host limits).1 = .error fault →
        (∀ index, zone.readConstraint (zone.write host limits).2 index =
          zone.readConstraint host index) ∧
        (zone.write host limits).2.find? (zone.constraint .second).names =
          host.find? (zone.constraint .second).names) ∧
      (∀ names, (zone.write host limits).2.handle? names = host.handle? names) ∧
      ∀ names, (∀ index, names ≠ (zone.constraint index).names) →
        (zone.write host limits).2.find? names = host.find? names := by
  obtain ⟨landed, kept, undone, stands, elsewhere⟩ :=
    writeWith_all_or_nothing (takes_writeConstraint zone) host limits
  have numbered : (∃ value, zone.readConstraint host .first = .ok value) ↔
      ∃ text n, host.readText (zone.constraint .first).names = .ok text ∧
        Text.readNumeral 10 UInt64.size (Text.trimChars text.toList) = .ok n := by
    constructor
    · intro read
      obtain ⟨value, read⟩ := read
      obtain ⟨text, shown, given⟩ := readConstraint_eq_ok_iff.1 read
      exact ⟨text, value.toNat, shown, given⟩
    · intro shown
      obtain ⟨text, n, shown, given⟩ := shown
      have small : n < UInt64.size := Text.readNumeral_lt (by decide) given
      refine ⟨.ofNat n, readConstraint_eq_ok_iff.2 ⟨text, shown, ?_⟩⟩
      have back : (UInt64.ofNat n).toNat = n := UInt64.toNat_ofNat_of_lt small
      rw [back, given]
  refine ⟨?_, kept, undone, stands, elsewhere⟩
  refine landed.trans (and_congr_right fun _ => and_congr_right fun _ => ?_)
  rw [← numbered, Host.exists_openNode_iff]
  refine and_congr_right fun read => ?_
  obtain ⟨value, read⟩ := read
  exact exists_stores_iff read limits

end PackagePower.Zone
