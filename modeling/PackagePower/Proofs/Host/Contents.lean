import PackagePower.Host.Contents

/-!
# Contents written and read back

A store changes eight bytes at most. Putting back the eight bytes that stood there undoes it,
and a store elsewhere does not. A text is read back from the contents it makes.
-/

namespace PackagePower.Contents

theorem byte_store_outside (contents : Contents) {offset : Nat} (value : Word) {i : Nat}
    (outside : i < offset ∨ offset + 8 ≤ i) :
    (contents.store offset value).byte i = contents.byte i := by
  change (if i < contents.size then patch contents.byte offset value i else 0) = _
  split
  · exact byte_patch_outside outside
  · rename_i beyond
    exact (contents.zero_beyond i (Nat.le_of_not_lt beyond)).symm

theorem read_eq_complete_iff {contents : Contents} {offset : Nat} {value : Word} :
    contents.read offset = .complete value ↔
      offset + 8 ≤ contents.size ∧ value = Word.ofBytes contents.byte offset := by
  unfold read
  split
  · rename_i long
    simp [long, eq_comm]
  · rename_i short
    simp [short]

/-- A write that does not make the file longer leaves the registers beside it. -/
theorem read_write_apart {contents : Contents} {offset other : Nat} (value : Word)
    (long : offset + 8 ≤ contents.size) (apart : other + 8 ≤ offset ∨ offset + 8 ≤ other) :
    (contents.write offset value).read other = contents.read other := by
  have size : (contents.write offset value).size = contents.size := Nat.max_eq_left long
  have word : Word.ofBytes (contents.write offset value).byte other =
      Word.ofBytes contents.byte other := by
    apply Word.ofBytes_congr
    intro index inside
    exact byte_patch_outside (by omega)
  unfold read
  rw [size, word]

/-- Putting back what stood there before a store undoes it. -/
theorem store_undone (contents : Contents) (offset : Nat) (value : Word) :
    (contents.store offset value).store offset (Word.ofBytes contents.byte offset) = contents := by
  refine Contents.ext rfl (funext fun i => ?_)
  by_cases outside : i < offset ∨ offset + 8 ≤ i
  · rw [byte_store_outside _ _ outside, byte_store_outside _ _ outside]
  · have place : offset + (i - offset) = i := by omega
    change (if i < contents.size then patch _ offset _ i else 0) = _
    split
    · unfold patch
      rw [if_pos (by omega), Word.byteAt_ofBytes _ _ (by omega), place]
    · rename_i beyond
      exact (contents.zero_beyond i (Nat.le_of_not_lt beyond)).symm

/-- Two stores at different places leave contents as they were only if either does. -/
theorem stores_apart_iff {contents : Contents} {offset other : Nat} {value word : Word}
    (apart : offset + 8 ≤ other ∨ other + 8 ≤ offset) :
    (contents.store offset value).store other word = contents ↔
      contents.store offset value = contents ∧
        (contents.store offset value).store other word = contents.store offset value := by
  constructor
  · intro same
    have first : contents.store offset value = contents := by
      refine Contents.ext rfl (funext fun i => ?_)
      by_cases outside : i < offset ∨ offset + 8 ≤ i
      · exact byte_store_outside _ _ outside
      · have elsewhere : i < other ∨ other + 8 ≤ i := by omega
        rw [← byte_store_outside (contents.store offset value) word elsewhere, same]
    exact ⟨first, same.trans first.symm⟩
  · rintro ⟨first, second⟩
    exact second.trans first

theorem toBytes_ofBytes (bytes : ByteArray) : (ofBytes bytes).toBytes = bytes := by
  apply ByteArray.ext
  apply Array.ext
  · simp [toBytes, ofBytes]
  · intro i below inside
    have here : i < bytes.size := inside
    simp [toBytes, ofBytes, here]
    rfl

theorem text?_ofText (text : String) : (ofText text).text? = some text := by
  unfold text? ofText
  rw [toBytes_ofBytes]
  exact dif_pos text.isValidUTF8

end PackagePower.Contents
