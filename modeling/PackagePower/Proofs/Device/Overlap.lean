import PackagePower.Program.Station
import PackagePower.Proofs.Device.Window

/-!
# Registers that overlap

Registers have eight bytes and stand at multiples of four, so each shares a half with the one in
front of it and a half with the one behind. A write gives both neighbours the half that they share
with it and leaves their other half, and it leaves every register further away.

An access is refused by its offset or by the access the window was mapped for, the latter first.
What is refused leaves no trace.
-/

namespace PackagePower

namespace Word

/-! ## Halves -/

/-- Four bytes as a number, the lowest first. -/
def half (bytes : Nat → UInt8) (start : Nat) : BitVec 32 := littleEndian bytes start 4

theorem half_congr {bytes other : Nat → UInt8} {start : Nat}
    (same : ∀ index < 4, bytes (start + index) = other (start + index)) :
    half bytes start = half other start := by
  apply BitVec.eq_of_getLsbD_eq
  intro i inside
  unfold half
  rw [getLsbD_littleEndian _ _ _ inside, getLsbD_littleEndian _ _ _ inside, same (i / 8) (by omega)]

theorem ofBytes_eq_append (bytes : Nat → UInt8) (start : Nat) :
    ofBytes bytes start = half bytes (start + 4) ++ half bytes start := by
  apply BitVec.eq_of_getLsbD_eq
  intro i inside
  unfold ofBytes half
  rw [getLsbD_littleEndian _ _ _ inside, BitVec.getLsbD_append]
  split
  · rename_i lower
    rw [getLsbD_littleEndian _ _ _ (by omega)]
  · rename_i upper
    have quotient : start + 4 + (i - 32) / 8 = start + i / 8 := by omega
    have remainder : (i - 32) % 8 = i % 8 := by omega
    rw [getLsbD_littleEndian _ _ _ (by omega), quotient, remainder]

theorem low_ofBytes (bytes : Nat → UInt8) (start : Nat) :
    (ofBytes bytes start).low = half bytes start := by
  rw [ofBytes_eq_append]
  exact BitVec.extractLsb'_append_eq_right

theorem high_ofBytes (bytes : Nat → UInt8) (start : Nat) :
    (ofBytes bytes start).high = half bytes (start + 4) := by
  rw [ofBytes_eq_append]
  exact BitVec.extractLsb'_append_eq_left

end Word

namespace Window

variable {window : Window} {host after : Host} {offset : Nat} {value : Word}

/-! ## What is accepted -/

theorem contains_iff : window.contains offset = true ↔
    offset % 4 = 0 ∧ offset + 8 ≤ window.size := by
  simp [contains]

theorem exists_read_iff : (∃ word, window.read host offset = .ok word) ↔
    offset % 4 = 0 ∧ offset + 8 ≤ window.size := by
  simp [read_eq_ok, contains_iff]

/-- Offsets are numbers, so the end of a register never wraps. A sum of 64 bits comes to the same
where its carry is looked at. -/
theorem exists_read_iff_of_word {place : Word} (sized : window.size < UInt64.size) :
    (∃ word, window.read host place.toNat = .ok word) ↔
      place % 4#64 = 0#64 ∧ place.uaddOverflow 8#64 = false ∧
        (place + 8#64).toNat ≤ window.size := by
  have four : (4#64 : Word).toNat = 4 := rfl
  have eight : (8#64 : Word).toNat = 8 := rfl
  have zero : (0#64 : Word).toNat = 0 := rfl
  unfold UInt64.size at sized
  rw [exists_read_iff, ← BitVec.toNat_inj, BitVec.toNat_umod, BitVec.toNat_add,
    BitVec.uaddOverflow, decide_eq_false_iff_not, four, eight, zero]
  omega

theorem read_eq_error {fault : Fault} : window.read host offset = .error fault ↔
    window.contains offset = false ∧ fault = .outOfWindow offset window.size := by
  unfold read
  split
  · rename_i inside
    simp [inside]
  · rename_i outside
    simp [outside, eq_comm]

/-- A write is refused for the access first, and then where a read is. -/
theorem write_eq_error {fault : Fault} : window.write host offset value = .error fault ↔
    (window.access = .readOnly ∧ fault = .readOnlyWindow window.base) ∨
      (window.access = .readWrite ∧ window.read host offset = .error fault) := by
  have refusal (cause : Fault) :
      (Except.error cause : Except Fault Host) = .error fault ↔ fault = cause := by
    rw [Except.error.injEq, eq_comm]
  unfold write
  rw [read_eq_error]
  cases access : window.access with
  | readOnly => simp [refusal]
  | readWrite =>
    rw [if_neg (by decide)]
    split
    · rename_i inside
      simp [inside]
    · rename_i outside
      simp [outside, refusal]

theorem readWrite_of_write (wrote : window.write host offset value = .ok after) :
    window.access = .readWrite := by
  cases access : window.access with
  | readWrite => rfl
  | readOnly =>
    rw [write_eq_error.2 (.inl ⟨access, rfl⟩)] at wrote
    cases wrote

/-! ## What a write leaves -/

/-- The memory behind the window reaches to the window's end. An access past the end of the memory
is no error but the end of the process. -/
def Backed (window : Window) (host : Host) : Prop :=
  window.base.toNat + window.size ≤ (host.contents window.memory).size

/-- Eight bytes of the window's memory are those of `value`, and nothing else has changed. -/
structure Written (window : Window) (before : Host) (offset : Nat) (value : Word)
    (after : Host) : Prop where
  bytes : ∀ index < 8, (after.contents window.memory).byte (window.base.toNat + offset + index) =
    value.byteAt index
  elsewhere : ∀ i, i < window.base.toNat + offset ∨ window.base.toNat + offset + 8 ≤ i →
    (after.contents window.memory).byte i = (before.contents window.memory).byte i
  size : (after.contents window.memory).size = (before.contents window.memory).size
  files : ∀ file, file ≠ window.memory → after.contents file = before.contents file
  paths : ∀ names, after.handle? names = before.handle? names

theorem written_of_write (backed : window.Backed host)
    (wrote : window.write host offset value = .ok after) :
    window.Written host offset value after := by
  obtain ⟨inside, rfl⟩ := (write_eq_ok (readWrite_of_write wrote)).1 wrote
  obtain ⟨_, far⟩ := contains_iff.1 inside
  have reach : window.base.toNat + offset + 8 ≤ (host.contents window.memory).size := by
    unfold Backed at backed
    omega
  have memory : (window.stored host offset value).contents window.memory =
      (host.contents window.memory).store (window.base.toNat + offset) value := by
    unfold stored
    rw [Host.contents_update, if_pos rfl]
  refine ⟨?_, ?_, ?_, ?_, ?_⟩
  · intro index small
    have whole : window.register (window.stored host offset value) offset = value :=
      register_stored reach
    exact (Word.byteAt_ofBytes _ _ small).symm.trans (congrArg (Word.byteAt · index) whole)
  · intro i outside
    rw [memory]
    exact Contents.byte_store_outside _ value outside
  · rw [memory]
    exact Contents.size_store _ _ value
  · intro file other
    unfold stored
    rw [Host.contents_update, if_neg other]
  · intro names
    exact Host.handle?_update _ _ _ names

namespace Written

variable {other : Nat} {word : Word} (written : window.Written host offset value after)
include written

theorem register_here : window.register after offset = value := by
  rw [← Word.ofBytes_byteAt value]
  apply Word.ofBytes_congr
  intro index inside
  rw [written.bytes index inside, Nat.zero_add]

theorem half_low :
    Word.half (after.contents window.memory).byte (window.base.toNat + offset) = value.low := by
  rw [← Word.low_ofBytes]
  exact congrArg Word.low written.register_here

theorem half_high :
    Word.half (after.contents window.memory).byte (window.base.toNat + offset + 4) =
      value.high := by
  rw [← Word.high_ofBytes]
  exact congrArg Word.high written.register_here

theorem half_elsewhere {start : Nat}
    (apart : start + 4 ≤ window.base.toNat + offset ∨ window.base.toNat + offset + 8 ≤ start) :
    Word.half (after.contents window.memory).byte start =
      Word.half (host.contents window.memory).byte start := by
  apply Word.half_congr
  intro index inside
  exact written.elsewhere _ (by omega)

theorem register_apart (apart : other + 8 ≤ offset ∨ offset + 8 ≤ other) :
    window.register after other = window.register host other := by
  apply Word.ofBytes_congr
  intro index inside
  exact written.elsewhere _ (by omega)

/-- The register behind gets its low half from what was written. -/
theorem register_behind : window.register after (offset + 4) =
    (window.register host (offset + 4)).high ++ value.high := by
  have place : window.base.toNat + (offset + 4) = window.base.toNat + offset + 4 := by omega
  unfold register
  rw [Word.ofBytes_eq_append, Word.high_ofBytes, place, written.half_high,
    written.half_elsewhere (by omega)]

/-- The register in front gets its high half from what was written. -/
theorem register_in_front (before : other + 4 = offset) : window.register after other =
    value.low ++ (window.register host other).low := by
  have place : window.base.toNat + other + 4 = window.base.toNat + offset := by omega
  unfold register
  rw [Word.ofBytes_eq_append, Word.low_ofBytes, place, written.half_low,
    written.half_elsewhere (by omega)]

end Written

/-! ## Accesses -/

/-- Every access is exact and bounded. A register is read exactly where its offset is a multiple of
four and its eight bytes are inside the window, and it is those bytes, the lowest first. A write is
refused for the access whatever the offset, or else where a read is, and then nothing has changed.
A write that is not refused puts eight bytes where a read takes them and changes nothing else, so
that each neighbour has one half of the word written and keeps its other half. -/
theorem accesses_are_exact (window : Window) (host : Host) (offset : Nat) (value : Word) :
    ((∃ word, window.read host offset = .ok word) ↔
      offset % 4 = 0 ∧ offset + 8 ≤ window.size) ∧
    (∀ place : Word, place.toNat = offset → window.size < UInt64.size →
      ((∃ word, window.read host offset = .ok word) ↔
        place % 4#64 = 0#64 ∧ place.uaddOverflow 8#64 = false ∧
          (place + 8#64).toNat ≤ window.size)) ∧
    (∀ word, window.read host offset = .ok word → ∀ index < 8, word.byteAt index =
      (host.contents window.memory).byte (window.base.toNat + offset + index)) ∧
    (∀ fault, window.read host offset = .error fault →
      fault = .outOfWindow offset window.size) ∧
    (window.write host offset value = .error (.readOnlyWindow window.base) ↔
      window.access = .readOnly) ∧
    (window.write host offset value = .error (.outOfWindow offset window.size) ↔
      window.access = .readWrite ∧
        window.read host offset = .error (.outOfWindow offset window.size)) ∧
    (∀ fault after, replied host (window.write host offset value) = (.error fault, after) →
      after = host ∧
        (fault = .readOnlyWindow window.base ∨ fault = .outOfWindow offset window.size)) ∧
    (window.Backed host → ∀ after, window.write host offset value = .ok after →
      window.Written host offset value after ∧
      window.read after offset = .ok value ∧
      (∀ behind, window.read host (offset + 4) = .ok behind →
        window.read after (offset + 4) = .ok (behind.high ++ value.high)) ∧
      (∀ other front, other + 4 = offset → window.read host other = .ok front →
        window.read after other = .ok (value.low ++ front.low)) ∧
      ∀ other, other + 8 ≤ offset ∨ offset + 8 ≤ other →
        window.read after other = window.read host other) := by
  refine ⟨exists_read_iff, ?_, ?_, ?_, ?_, ?_, ?_, ?_⟩
  · rintro place rfl sized
    exact exists_read_iff_of_word sized
  · intro word read index inside
    obtain ⟨_, rfl⟩ := read_eq_ok.1 read
    exact Word.byteAt_ofBytes _ _ inside
  · intro fault refused
    exact (read_eq_error.1 refused).2
  · rw [write_eq_error, read_eq_error]
    simp
  · rw [write_eq_error]
    simp
  · intro fault after refused
    cases wrote : window.write host offset value with
    | ok landed =>
      rw [wrote] at refused
      cases refused
    | error cause =>
      rw [wrote] at refused
      cases refused
      refine ⟨rfl, ?_⟩
      rcases write_eq_error.1 wrote with ⟨_, same⟩ | ⟨_, refused⟩
      · exact .inl same
      · exact .inr (read_eq_error.1 refused).2
  · intro backed after wrote
    have written := written_of_write backed wrote
    obtain ⟨inside, _⟩ := (write_eq_ok (readWrite_of_write wrote)).1 wrote
    refine ⟨written, read_eq_ok.2 ⟨inside, written.register_here.symm⟩, ?_, ?_, ?_⟩
    · intro behind read
      obtain ⟨near, rfl⟩ := read_eq_ok.1 read
      exact read_eq_ok.2 ⟨near, written.register_behind.symm⟩
    · intro other front before read
      obtain ⟨near, rfl⟩ := read_eq_ok.1 read
      exact read_eq_ok.2 ⟨near, (written.register_in_front before).symm⟩
    · intro other apart
      unfold read
      rw [written.register_apart apart]

/-- A window of 27 bytes, the last three of which are in no register. -/
def narrowWindow : Window := ⟨⟨[], 0⟩, 16#64, 27, .readWrite⟩

/-- Memory where the first sixteen bytes of that window are numbered. -/
def numberedBytes : Host where
  entries := []
  files := [(⟨[], 0⟩, ((Contents.zeros 64).write 16 0x0706050403020100#64).write 24
    0x0F0E0D0C0B0A0908#64)]
  made := 1

theorem narrowWindow_accesses :
    narrowWindow.Backed numberedBytes ∧ ∃ after,
      narrowWindow.write numberedBytes 4 0xFEDCBA9876543210#64 = .ok after ∧
      narrowWindow.read after 4 = .ok 0xFEDCBA9876543210#64 ∧
      narrowWindow.read after 8 = .ok 0x0F0E0D0CFEDCBA98#64 ∧
      narrowWindow.read after 0 = .ok 0x7654321003020100#64 ∧
      narrowWindow.read after 12 = narrowWindow.read numberedBytes 12 := by
  have backed : narrowWindow.Backed numberedBytes := by
    unfold Backed
    decide
  obtain ⟨after, wrote⟩ : ∃ after,
      narrowWindow.write numberedBytes 4 0xFEDCBA9876543210#64 = .ok after := ⟨_, rfl⟩
  have behind : narrowWindow.read numberedBytes 8 = .ok 0x0F0E0D0C0B0A0908#64 :=
    read_eq_ok.2 ⟨rfl, by decide +kernel⟩
  have front : narrowWindow.read numberedBytes 0 = .ok 0x0706050403020100#64 :=
    read_eq_ok.2 ⟨rfl, by decide +kernel⟩
  obtain ⟨_, _, _, _, _, _, _, left⟩ :=
    accesses_are_exact narrowWindow numberedBytes 4 0xFEDCBA9876543210#64
  obtain ⟨_, here, above, below, apart⟩ := left backed after wrote
  exact ⟨backed, after, wrote, here, above _ behind, below 0 _ rfl front, apart 12 (by decide)⟩

end Window
end PackagePower
