import PackagePower.Proofs.Host.Update

/-!
# Hosts that agree at a path

What comes of opening a path and of reading there is decided by what is found at the path and
above it. Hosts that agree so far give the same texts and the same registers, whatever else they
differ in, and whichever files they keep the contents in.
-/

namespace PackagePower.Host

variable {host other : Host} {names : List String} {access : Access}

theorem find?_eq_none_iff : host.find? names = none ↔ host.handle? names = none :=
  Option.map_eq_none_iff

theorem find?_eq_directory_iff :
    host.find? names = some .directory ↔ host.handle? names = some .directory := by
  unfold find?
  cases host.handle? names with
  | none => simp
  | some handle => cases handle <;> simp [Node.map]

/-! ## What opening gives -/

theorem lookup_of_none (nothing : host.find? names = none) : host.lookup names =
    .error (if host.belowFile names then .notDirectory else .missing) := by
  unfold lookup
  rw [find?_eq_none_iff.1 nothing]

theorem openNode_of_none (nothing : host.find? names = none) : host.openNode names access =
    .error (if host.belowFile names then .notDirectory else .missing) := by
  unfold openNode
  rw [lookup_of_none nothing]

theorem openNode_of_directory (found : host.find? names = some .directory) :
    host.openNode names .readOnly = .ok .directory := by
  unfold openNode lookup
  rw [find?_eq_directory_iff.1 found]

theorem openNode_refused (found : host.find? names = some .directory) :
    host.openNode names .readWrite = .error .isDirectory := by
  unfold openNode lookup
  rw [find?_eq_directory_iff.1 found]

theorem openNode_of_file {contents : Contents} (found : host.find? names = some (.file contents))
    (access : Access) : ∃ file, host.openNode names access = .ok (.file file) ∧
      host.contents file = contents := by
  obtain ⟨file, stands, same⟩ := find?_eq_file_iff.1 found
  exact ⟨file, openNode_eq_file_iff.2 stands, same⟩

theorem mem_above_iff {upper : List String} :
    upper ∈ above names ↔ upper <+: names ∧ upper.length < names.length := by
  unfold above
  rw [List.mem_map]
  constructor
  · rintro ⟨length, short, rfl⟩
    rw [List.mem_range] at short
    refine ⟨List.take_prefix length names, ?_⟩
    rw [List.length_take]
    omega
  · rintro ⟨first, short⟩
    exact ⟨upper.length, List.mem_range.2 short, (List.prefix_iff_eq_take.1 first).symm⟩

theorem belowFile_iff : host.belowFile names = true ↔
    ∃ upper ∈ above names, ∃ contents, host.find? upper = some (.file contents) := by
  unfold belowFile
  rw [List.any_eq_true]
  refine exists_congr fun upper => and_congr_right fun _ => ?_
  simp only [find?_eq_file_iff]
  cases stands : host.handle? upper with
  | none => simp
  | some handle =>
    cases handle with
    | directory => simp
    | file file => simp

/-! ## Children -/

theorem mem_children_iff {name : String} :
    name ∈ host.children names ↔ host.find? (names ++ [name]) ≠ none := by
  have listed : host.find? (names ++ [name]) ≠ none ↔
      ∃ entry ∈ host.entries, entry.1 = names ++ [name] := by
    rw [Ne, find?_eq_none_iff, ← Ne, Option.ne_none_iff_isSome]
    unfold handle?
    rw [Option.isSome_map, List.lookup_isSome_iff]
    refine exists_congr fun entry => and_congr_right fun _ => ?_
    rw [beq_iff_eq, eq_comm]
  rw [listed]
  unfold children
  rw [List.mem_filterMap]
  constructor
  · intro made
    obtain ⟨⟨path, node⟩, member, named⟩ := made
    refine ⟨⟨path, node⟩, member, ?_⟩
    rcases List.eq_nil_or_concat path with rfl | ⟨upper, last, rfl⟩
    · cases named
    · rw [List.concat_eq_append] at named ⊢
      simp only [List.getLast?_concat, List.dropLast_concat] at named
      split at named
      · rename_i same
        cases named
        rw [same]
      · cases named
  · intro stands
    obtain ⟨⟨_, node⟩, member, rfl⟩ := stands
    exact ⟨_, member, by simp⟩

/-! ## Agreement -/

/-- The same is found at `names`, and a file stands above it on both hosts or on neither. -/
structure SameAt (host other : Host) (names : List String) : Prop where
  here : other.find? names = host.find? names
  below : other.belowFile names = host.belowFile names

namespace SameAt

theorem refl (host : Host) (names : List String) : SameAt host host names := ⟨rfl, rfl⟩

theorem symm (same : SameAt host other names) : SameAt other host names :=
  ⟨same.here.symm, same.below.symm⟩

theorem trans {third : Host} (first : SameAt host other names) (second : SameAt other third names) :
    SameAt host third names :=
  ⟨second.here.trans first.here, second.below.trans first.below⟩

theorem readText_eq (same : SameAt host other names) :
    other.readText names = host.readText names := by
  unfold readText
  cases found : host.find? names with
  | none =>
    rw [openNode_of_none found, openNode_of_none (same.here.trans found), same.below]
  | some node =>
    cases node with
    | directory => rw [openNode_of_directory found, openNode_of_directory (same.here.trans found)]
    | file contents =>
      obtain ⟨file, opened, kept⟩ := openNode_of_file found .readOnly
      obtain ⟨file', opened', kept'⟩ := openNode_of_file (same.here.trans found) .readOnly
      rw [opened, opened']
      dsimp only
      rw [kept, kept']

/-- A text cannot be written for the same reason, or a file stands on both hosts. -/
theorem writeText_eq (same : SameAt host other names) (text : String) :
    (∃ cause, host.writeText names text = .error cause ∧
        other.writeText names text = .error cause) ∨
      ∃ file file', host.handle? names = some (.file file) ∧
        other.handle? names = some (.file file') := by
  unfold writeText
  cases found : host.find? names with
  | none =>
    rw [openNode_of_none found, openNode_of_none (same.here.trans found), same.below]
    exact .inl ⟨_, rfl, rfl⟩
  | some node =>
    cases node with
    | directory =>
      rw [openNode_refused found, openNode_refused (same.here.trans found)]
      exact .inl ⟨_, rfl, rfl⟩
    | file contents =>
      obtain ⟨file, stands, _⟩ := find?_eq_file_iff.1 found
      obtain ⟨file', stands', _⟩ := find?_eq_file_iff.1 (same.here.trans found)
      exact .inr ⟨file, file', stands, stands'⟩

/-- What is put elsewhere, and not above, does not matter. -/
theorem put {sought : List String} (node : Node Contents) (apart : ¬ names <+: sought) :
    SameAt host (host.put names node) sought := by
  have kept {part : List String} (first : part <+: sought) :
      (host.put names node).find? part = host.find? part := by
    apply find?_put_apart
    rintro rfl
    exact apart first
  refine ⟨kept List.prefix_rfl, ?_⟩
  rw [Bool.eq_iff_iff, belowFile_iff, belowFile_iff]
  refine exists_congr fun upper => and_congr_right fun above => ?_
  rw [kept (mem_above_iff.1 above).1]

/-- Where everything in a directory is the same, so is what can be reached there. -/
theorem deeper (top : SameAt host other names)
    (inside : ∀ part, names <+: part → other.find? part = host.find? part) {part : List String}
    (reached : names <+: part) : SameAt host other part := by
  have below {host other : Host} (top : SameAt host other names)
      (inside : ∀ part, names <+: part → other.find? part = host.find? part)
      (blocked : host.belowFile part = true) : other.belowFile part = true := by
    obtain ⟨upper, above, contents, found⟩ := belowFile_iff.1 blocked
    obtain ⟨first, short⟩ := mem_above_iff.1 above
    by_cases higher : upper.length < names.length
    · have upward : upper ∈ Host.above names :=
        mem_above_iff.2 ⟨List.prefix_of_prefix_length_le first reached (by omega), higher⟩
      have blocked' := top.below.trans (belowFile_iff.2 ⟨upper, upward, contents, found⟩)
      obtain ⟨upper', above', contents', found'⟩ := belowFile_iff.1 blocked'
      obtain ⟨first', short'⟩ := mem_above_iff.1 above'
      have length := reached.length_le
      exact belowFile_iff.2
        ⟨upper', mem_above_iff.2 ⟨first'.trans reached, by omega⟩, contents', found'⟩
    · have within := List.prefix_of_prefix_length_le reached first (by omega)
      exact belowFile_iff.2 ⟨upper, above, contents, (inside upper within).trans found⟩
  refine ⟨inside part reached, ?_⟩
  rw [Bool.eq_iff_iff]
  exact ⟨below top.symm fun part within => (inside part within).symm, below top inside⟩

/-- Changing a file that stands elsewhere does not matter. -/
theorem update (same : SameAt host other names) {file : FileId} (change : Contents → Contents)
    (apart : names ≠ file.names) : SameAt (host.update file change) other names :=
  ⟨same.here.trans (find?_update_apart apart).symm, same.below⟩

end SameAt

/-- The same is found at `names` and above it. -/
def AgreeAt (host other : Host) (names : List String) : Prop :=
  ∀ part, part <+: names → other.find? part = host.find? part

namespace AgreeAt

theorem here (agree : AgreeAt host other names) : other.find? names = host.find? names :=
  agree names List.prefix_rfl

theorem belowFile_eq (agree : AgreeAt host other names) :
    other.belowFile names = host.belowFile names := by
  rw [Bool.eq_iff_iff, belowFile_iff, belowFile_iff]
  refine exists_congr fun upper => and_congr_right fun above => ?_
  rw [agree upper (mem_above_iff.1 above).1]

theorem same (agree : AgreeAt host other names) : SameAt host other names :=
  ⟨agree.here, agree.belowFile_eq⟩

theorem readText_eq (agree : AgreeAt host other names) :
    other.readText names = host.readText names := agree.same.readText_eq

end AgreeAt
end PackagePower.Host
