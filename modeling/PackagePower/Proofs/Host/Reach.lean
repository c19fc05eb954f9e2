import PackagePower.Proofs.Host.Update

/-!
# What is within reach of a change

A reach names the registers of files that may change, eight bytes each, and the files that may
change as a whole. Everything else is as before in a host that is `Within` the reach of another:
what stands where, how long files are, and every byte that the reach does not name.
-/

namespace PackagePower

structure Reach where
  /-- Registers, by their file and position. -/
  registers : List (List String × Nat) := []
  /-- Files that may change as a whole. -/
  texts : List (List String) := []

namespace Reach

/-- No change gets to the byte. -/
structure Spares (reach : Reach) (names : List String) (position : Nat) : Prop where
  text : names ∉ reach.texts
  register : ∀ start, (names, start) ∈ reach.registers → position < start ∨ start + 8 ≤ position

end Reach

structure Host.Within (reach : Reach) (before after : Host) : Prop where
  handle : ∀ names, after.handle? names = before.handle? names
  size : ∀ file : FileId, file.names ∉ reach.texts →
    (after.contents file).size = (before.contents file).size
  byte : ∀ (file : FileId) (i : Nat), reach.Spares file.names i →
    (after.contents file).byte i = (before.contents file).byte i

namespace Host.Within

variable {reach : Reach} {host before middle after : Host} {file : FileId}

theorem refl (reach : Reach) (host : Host) : Within reach host host :=
  ⟨fun _ => rfl, fun _ _ => rfl, fun _ _ _ => rfl⟩

theorem trans (first : Within reach before middle) (second : Within reach middle after) :
    Within reach before after where
  handle names := (second.handle names).trans (first.handle names)
  size file apart := (second.size file apart).trans (first.size file apart)
  byte file i spared := (second.byte file i spared).trans (first.byte file i spared)

theorem update {change : Contents → Contents}
    (size : file.names ∉ reach.texts →
      (change (host.contents file)).size = (host.contents file).size)
    (byte : ∀ i, reach.Spares file.names i →
      (change (host.contents file)).byte i = (host.contents file).byte i) :
    Within reach host (host.update file change) := by
  refine ⟨fun names => rfl, ?_, ?_⟩
  · intro sought apart
    rw [contents_update]
    split
    · rename_i same
      rw [same] at apart ⊢
      exact size apart
    · rfl
  · intro sought i spared
    rw [contents_update]
    split
    · rename_i same
      rw [same] at spared ⊢
      exact byte i spared
    · rfl

theorem update_text (member : file.names ∈ reach.texts) (change : Contents → Contents) :
    Within reach host (host.update file change) := by
  apply update
  · intro apart
    exact (apart member).elim
  · intro i spared
    exact (spared.text member).elim

theorem update_store {start : Nat} (member : (file.names, start) ∈ reach.registers) (value : Word) :
    Within reach host (host.update file fun contents => contents.store start value) := by
  apply update
  · intro _
    rfl
  · intro i spared
    exact Contents.byte_store_outside _ value (spared.register start member)

/-- A write to a file stays within it where the file is long enough. -/
theorem update_write {start : Nat} (member : (file.names, start) ∈ reach.registers)
    (long : start + 8 ≤ (host.contents file).size) (value : Word) :
    Within reach host (host.update file fun contents => contents.write start value) := by
  apply update
  · intro _
    change max (host.contents file).size (start + 8) = _
    omega
  · intro i spared
    exact Contents.byte_patch_outside (spared.register start member)

/-! ## What stays the same -/

/-- Outside the texts files are as long as before. -/
theorem size_eq (within : Within reach before after) {names : List String}
    (apart : names ∉ reach.texts) :
    (after.find? names).map (Node.map Contents.size) =
      (before.find? names).map (Node.map Contents.size) := by
  unfold find?
  rw [within.handle names]
  cases stands : before.handle? names with
  | none => rfl
  | some handle =>
    cases handle with
    | directory => rfl
    | file sought =>
      have named := names_of_handle? stands
      have kept : (after.contents sought).size = (before.contents sought).size :=
        within.size sought (named.symm ▸ apart)
      simp only [Option.map_some, Node.map, kept]

theorem read_eq (within : Within reach before after) {position : Nat}
    (spared : ∀ i, position ≤ i → i < position + 8 → reach.Spares file.names i) :
    (after.contents file).read position = (before.contents file).read position := by
  have size := within.size file (spared position (by omega) (by omega)).text
  have word : Word.ofBytes (after.contents file).byte position =
      Word.ofBytes (before.contents file).byte position := by
    apply Word.ofBytes_congr
    intro index inside
    exact within.byte file _ (spared _ (by omega) (by omega))
  unfold Contents.read
  rw [size, word]

theorem readWord_eq (within : Within reach before after) {names : List String} {position : Nat}
    {handle : Handle} (stands : before.handle? names = some handle)
    (spared : ∀ i, position ≤ i → i < position + 8 → reach.Spares names i) :
    after.readWord handle position = before.readWord handle position := by
  unfold readWord
  cases handle with
  | directory => rfl
  | file sought =>
    rw [← names_of_handle? stands] at spared
    dsimp only
    rw [within.read_eq spared]

end Host.Within
end PackagePower
