import PackagePower.Host.Basic
import PackagePower.Proofs.Host.Contents

/-!
# Changing one file

Giving a file other contents changes what is found at its own path, if it stands there, and
nowhere else. What stands at a path, and what is below a directory, is the same as before.
-/

namespace PackagePower

/-- Whatever path is looked at, the same is found there. -/
def SameFiles (before after : Host) : Prop := ∀ names, after.find? names = before.find? names

namespace Host

variable {host : Host} {file : FileId} {change next : Contents → Contents}

theorem names_of_handle? {names : List String} (stands : host.handle? names = some (.file file)) :
    file.names = names := by
  obtain ⟨entry, _, same⟩ := Option.map_eq_some_iff.1 stands
  cases entry with
  | file serial =>
    cases same
    rfl
  | directory => cases same

/-- What is put at a path is found there and nowhere else. -/
theorem find?_put_apart {names sought : List String} (node : Node Contents)
    (apart : sought ≠ names) : (host.put names node).find? sought = host.find? sought := by
  have missed : (sought == names) = false := beq_false_of_ne apart
  have entered (entry : Node Nat) :
      (host.enter names entry).entries.lookup sought = host.entries.lookup sought := by
    unfold enter
    rw [List.lookup_cons, missed]
    exact lookup_filter_ne apart host.entries
  have stands : (host.put names node).handle? sought = host.handle? sought := by
    unfold handle?
    cases node <;> exact congrArg _ (entered _)
  unfold find?
  rw [stands]
  cases found : host.handle? sought with
  | none => rfl
  | some handle =>
    cases handle with
    | directory => rfl
    | file file =>
      refine congrArg (some <| Node.file ·) ?_
      cases node with
      | directory => rfl
      | file kept =>
        have other : (file == ⟨names, host.made⟩) = false := by
          apply beq_false_of_ne
          rintro rfl
          exact apart (names_of_handle? found).symm
        unfold put contents
        rw [List.lookup_cons, other]

theorem find?_eq_file_iff {names : List String} {contents : Contents} :
    host.find? names = some (.file contents) ↔
      ∃ file, host.handle? names = some (.file file) ∧ host.contents file = contents := by
  unfold find?
  cases stands : host.handle? names with
  | none => simp
  | some handle =>
    cases handle with
    | directory => simp [Node.map]
    | file file => simp [Node.map]

theorem sameFiles_update_iff (stands : host.handle? file.names = some (.file file)) :
    SameFiles host (host.update file change) ↔
      change (host.contents file) = host.contents file := by
  constructor
  · intro same
    have here := same file.names
    rw [find?_update, find?, stands] at here
    simpa [Node.map] using here
  · intro same names
    rw [find?_update, find?]
    congr 2
    funext sought
    split
    · rename_i equal
      rw [equal, same]
    · rfl

/-- Changing a file again is changing it once by both. -/
theorem sameFiles_update_update_iff (stands : host.handle? file.names = some (.file file)) :
    SameFiles host ((host.update file change).update file next) ↔
      next (change (host.contents file)) = host.contents file := by
  have once : ∀ names, ((host.update file change).update file next).find? names =
      (host.update file (next ∘ change)).find? names := by
    intro names
    rw [find?_update, find?_update, handle?_update]
    congr 2
    funext sought
    simp only [contents_update, if_true, Function.comp_apply]
    split <;> rfl
  have both : SameFiles host (host.update file (next ∘ change)) ↔
      next (change (host.contents file)) = host.contents file := sameFiles_update_iff stands
  refine Iff.trans ?_ both
  exact forall_congr' fun names => by rw [once]

theorem handle?_of_openNode {names : List String} {access : Access} {handle : Handle}
    (opened : host.openNode names access = .ok handle) : host.handle? names = some handle := by
  unfold openNode lookup at opened
  cases stands : host.handle? names with
  | none =>
    rw [stands] at opened
    cases access <;> cases opened
  | some other =>
    rw [stands] at opened
    cases other <;> cases access <;> cases opened <;> rfl

/-! ## Files as texts -/

theorem openNode_eq_file_iff {names : List String} {access : Access} :
    host.openNode names access = .ok (.file file) ↔ host.handle? names = some (.file file) := by
  constructor
  · exact handle?_of_openNode
  · intro stands
    unfold openNode lookup
    rw [stands]

/-- What can be opened for writing is a file. -/
theorem exists_openNode_iff {names : List String} :
    (∃ handle, host.openNode names .readWrite = .ok handle) ↔
      ∃ file, host.handle? names = some (.file file) := by
  constructor
  · intro opened
    obtain ⟨handle, opened⟩ := opened
    cases handle with
    | file file => exact ⟨file, handle?_of_openNode opened⟩
    | directory =>
      unfold openNode at opened
      cases found : host.lookup names with
      | error cause =>
        rw [found] at opened
        cases opened
      | ok other =>
        rw [found] at opened
        cases other <;> cases opened
  · intro stands
    obtain ⟨file, stands⟩ := stands
    exact ⟨.file file, openNode_eq_file_iff.2 stands⟩

theorem readText_eq_ok_iff {names : List String} {text : String} :
    host.readText names = .ok text ↔
      ∃ file, host.handle? names = some (.file file) ∧ (host.contents file).text? = some text := by
  constructor
  · intro read
    unfold readText at read
    split at read
    · cases read
    · cases read
    · rename_i file opened
      split at read
      · rename_i found encoded
        cases read
        exact ⟨file, handle?_of_openNode opened, encoded⟩
      · cases read
  · intro stands
    obtain ⟨file, stands, encoded⟩ := stands
    unfold readText
    rw [openNode_eq_file_iff.2 stands]
    simp only [encoded]

theorem writeText_of_file {names : List String} (stands : host.handle? names = some (.file file))
    (text : String) :
    host.writeText names text = .ok (host.update file fun _ => .ofText text) := by
  unfold writeText
  rw [openNode_eq_file_iff.2 stands]

/-- Only to a file a text can be written. -/
theorem file_of_writeText {names : List String} {text : String} {after : Host}
    (wrote : host.writeText names text = .ok after) :
    ∃ file, host.handle? names = some (.file file) ∧
      after = host.update file fun _ => .ofText text := by
  unfold writeText at wrote
  split at wrote
  · cases wrote
  · cases wrote
  · rename_i file opened
    cases wrote
    exact ⟨file, handle?_of_openNode opened, rfl⟩

theorem readText_written {names : List String} (stands : host.handle? names = some (.file file))
    (text : String) : (host.update file fun _ => .ofText text).readText names = .ok text := by
  rw [readText_eq_ok_iff]
  refine ⟨file, stands, ?_⟩
  rw [contents_update, if_pos rfl, Contents.text?_ofText]

/-! ## What a change leaves alone -/

theorem openNode_update (host : Host) (file : FileId) (change : Contents → Contents)
    (names : List String) (access : Access) :
    (host.update file change).openNode names access = host.openNode names access := rfl

theorem contents_apart {sought : FileId} (apart : sought.names ≠ file.names) :
    (host.update file change).contents sought = host.contents sought := by
  rw [contents_update, if_neg]
  rintro rfl
  exact apart rfl

theorem find?_update_apart {names : List String} (apart : names ≠ file.names) :
    (host.update file change).find? names = host.find? names := by
  unfold find?
  rw [handle?_update]
  cases stands : host.handle? names with
  | none => rfl
  | some handle =>
    cases handle with
    | directory => rfl
    | file sought =>
      have named := names_of_handle? stands
      have kept : (host.update file change).contents sought = host.contents sought :=
        contents_apart (named ▸ apart)
      simp only [Option.map_some, Node.map, kept]

theorem readText_update {names : List String} (apart : names ≠ file.names) :
    (host.update file change).readText names = host.readText names := by
  unfold readText
  rw [openNode_update]
  cases opened : host.openNode names .readOnly with
  | error cause => rfl
  | ok handle =>
    cases handle with
    | directory => rfl
    | file sought =>
      have named := names_of_handle? (handle?_of_openNode opened)
      have kept : (host.update file change).contents sought = host.contents sought :=
        contents_apart (named ▸ apart)
      simp only [kept]

theorem readWord_update {names : List String} {access : Access} {handle : Handle}
    (apart : names ≠ file.names) (opened : host.openNode names access = .ok handle) (offset : Nat) :
    (host.update file change).readWord handle offset = host.readWord handle offset := by
  unfold readWord
  cases handle with
  | directory => rfl
  | file sought =>
    have named := names_of_handle? (handle?_of_openNode opened)
    have kept : (host.update file change).contents sought = host.contents sought :=
      contents_apart (named ▸ apart)
    simp only [kept]

end Host
end PackagePower
