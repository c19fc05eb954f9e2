import PackagePower.Proofs.Device.Listing
import PackagePower.Proofs.Device.Window
import PackagePower.Scan

/-!
# One window on two hosts

Discovery looks at the bus functions and mapping at memory. Two hosts that have these in common
publish the same window, or fail to for the same reason, and show the same registers in it. What
their register files and power zones hold does not matter.
-/

namespace PackagePower

/-- The same bus functions and the same memory are found on both hosts. -/
structure Host.SameWindow (host other : Host) (layout : Layout) : Prop where
  functions : ∀ names, layout.busFunctions.names <+: names → other.find? names = host.find? names
  above : other.belowFile layout.busFunctions.names = host.belowFile layout.busFunctions.names
  memory : Host.SameAt host other layout.memory.names

variable {host other : Host} {layout : Layout} {directory : Path}

/-! ## Discovery -/

namespace Bridge

theorem find_congr (top : Host.SameAt host other directory.names)
    (inside : ∀ names, directory.names <+: names → other.find? names = host.find? names) :
    find other directory = find host directory := by
  have probes (name : String) :
      probe? other (directory.child name) = probe? host (directory.child name) := by
    apply probe?_congr
    intro used member
    apply (top.deeper inside _).readText_eq
    simp only [consulted, List.mem_cons, List.not_mem_nil, or_false] at member
    rcases member with rfl | rfl | rfl <;>
      exact (List.prefix_append _ _).trans (List.prefix_append _ _)
  unfold find
  rw [probes customaryName]
  cases probe? host (directory.child customaryName) with
  | some bridge => rfl
  | none =>
    dsimp only
    cases found : host.find? directory.names with
    | none =>
      unfold Host.list
      rw [Host.lookup_of_none found, Host.lookup_of_none (top.here.trans found), top.below]
    | some node =>
      cases node with
      | file contents =>
        obtain ⟨file, stands, _⟩ := Host.find?_eq_file_iff.1 found
        obtain ⟨file', stands', _⟩ := Host.find?_eq_file_iff.1 (top.here.trans found)
        unfold Host.list Host.lookup
        rw [stands, stands']
      | directory =>
        rw [list_of_directory found, list_of_directory (top.here.trans found)]
        simp only [probes]
        rw [least?_congr]
        intro name
        rw [List.mem_filter, List.mem_filter, Host.mem_children_iff, Host.mem_children_iff,
          inside _ (List.prefix_append _ _)]

end Bridge

namespace Host.SameWindow

theorem trans {third : Host} (first : SameWindow host other layout)
    (second : SameWindow other third layout) : SameWindow host third layout where
  functions names reached := (second.functions names reached).trans (first.functions names reached)
  above := second.above.trans first.above
  memory := first.memory.trans second.memory

/-- Whatever is put beside the bus functions and memory. -/
theorem put {names : List String} (node : Node Contents)
    (beside : ¬ layout.busFunctions.names <+: names) (top : ¬ names <+: layout.busFunctions.names)
    (memory : ¬ names <+: layout.memory.names) : SameWindow host (host.put names node) layout where
  functions part reached := by
    apply find?_put_apart
    rintro rfl
    exact beside reached
  above := (SameAt.put node top).below
  memory := .put node memory

theorem at_function (same : SameWindow host other layout) {names : List String}
    (reached : layout.busFunctions.names <+: names) : SameAt host other names :=
  SameAt.deeper ⟨same.functions _ List.prefix_rfl, same.above⟩ same.functions reached

theorem discover_eq (same : SameWindow host other layout) :
    discover other layout = discover host layout := by
  have found := Bridge.find_congr (same.at_function List.prefix_rfl) same.functions
  cases ended : Bridge.find host layout.busFunctions with
  | error cause => rw [discover_of_no_bridge ended, discover_of_no_bridge (found.trans ended)]
  | ok bridge =>
    obtain ⟨name, place⟩ := Bridge.path_of_find ended
    have reached : layout.busFunctions.names <+: bridge.configuration.names := by
      unfold Bridge.configuration
      rw [place]
      exact (List.prefix_append _ _).trans (List.prefix_append _ _)
    rw [discover_of_find ended, discover_of_find (found.trans ended),
      Bridge.publishedWindow_eq rfl (same.at_function reached)]

end Host.SameWindow

/-! ## Windows -/

namespace Window

/-- Windows on the two hosts over memory with the same contents. -/
structure Alike (layout : Layout) (window beside : Window) (host other : Host) : Prop where
  base : beside.base = window.base
  size : beside.size = window.size
  access : beside.access = window.access
  stands : host.handle? layout.memory.names = some (.file window.memory)
  stands' : other.handle? layout.memory.names = some (.file beside.memory)
  contents : other.contents beside.memory = host.contents window.memory

theorem mappable_file (memory memory' : FileId) (base : Word) (size : Nat) :
    (∃ cause, mappable (.file memory) base size = .error cause ∧
        mappable (.file memory') base size = .error cause) ∨
      mappable (.file memory) base size = .ok memory ∧
        mappable (.file memory') base size = .ok memory' := by
  unfold mappable
  split
  · exact .inl ⟨_, rfl, rfl⟩
  · split
    · exact .inl ⟨_, rfl, rfl⟩
    · split
      · exact .inl ⟨_, rfl, rfl⟩
      · split
        · exact .inl ⟨_, rfl, rfl⟩
        · dsimp only
          split
          · exact .inl ⟨_, rfl, rfl⟩
          · exact .inr ⟨rfl, rfl⟩

/-- A window cannot be mapped for the same reason, or is mapped on both hosts. -/
theorem map_cases (same : Host.SameAt host other layout.memory.names) (base : Word)
    (access : Access) :
    (∃ fault, map host layout base access = .error fault ∧
        map other layout base access = .error fault) ∨
      ∃ window beside, map host layout base access = .ok window ∧
        map other layout base access = .ok beside ∧ Alike layout window beside host other := by
  unfold map
  dsimp only
  cases found : host.find? layout.memory.names with
  | none =>
    rw [Host.openNode_of_none found, Host.openNode_of_none (same.here.trans found), same.below]
    exact .inl ⟨_, rfl, rfl⟩
  | some node =>
    cases node with
    | directory =>
      have found' := same.here.trans found
      cases access with
      | readWrite =>
        rw [Host.openNode_refused found, Host.openNode_refused found']
        exact .inl ⟨_, rfl, rfl⟩
      | readOnly =>
        rw [Host.openNode_of_directory found, Host.openNode_of_directory found']
        dsimp only
        cases mapped : mappable .directory base layout.windowSize with
        | error cause => exact .inl ⟨_, rfl, rfl⟩
        | ok memory => cases mappable_eq_ok mapped
    | file contents =>
      obtain ⟨file, opened, kept⟩ := Host.openNode_of_file found access
      obtain ⟨file', opened', kept'⟩ := Host.openNode_of_file (same.here.trans found) access
      rw [opened, opened']
      dsimp only
      rcases mappable_file file file' base layout.windowSize with
        ⟨cause, failed, failed'⟩ | ⟨mapped, mapped'⟩
      · rw [failed, failed']
        exact .inl ⟨_, rfl, rfl⟩
      · rw [mapped, mapped']
        exact .inr ⟨_, _, rfl, rfl, rfl, rfl, rfl, Host.handle?_of_openNode opened,
          Host.handle?_of_openNode opened', kept'.trans kept.symm⟩

namespace Alike

variable {window beside : Window}

theorem found (alike : Alike layout window beside host other) :
    other.find? layout.memory.names = host.find? layout.memory.names := by
  unfold Host.find?
  rw [alike.stands, alike.stands']
  exact congrArg (some <| Node.file ·) alike.contents

theorem contains_eq (alike : Alike layout window beside host other) (offset : Nat) :
    beside.contains offset = window.contains offset := by
  unfold contains
  rw [alike.size]

theorem register_eq (alike : Alike layout window beside host other) (offset : Nat) :
    beside.register other offset = window.register host offset := by
  unfold register
  rw [alike.contents, alike.base]

theorem read_eq (alike : Alike layout window beside host other) (offset : Nat) :
    beside.read other offset = window.read host offset := by
  unfold read
  rw [alike.contains_eq, alike.register_eq, alike.size]

theorem lacks_eq (alike : Alike layout window beside host other) (offset : Nat) :
    beside.lacks other offset = window.lacks host offset := by
  unfold lacks
  rw [alike.contains_eq, alike.contents, alike.base]

theorem load_eq (alike : Alike layout window beside host other) (offset : Nat) :
    beside.load other offset = window.load host offset := by
  unfold load
  rw [alike.lacks_eq, alike.read_eq]

/-- A write is refused on both hosts, or lands on both. -/
theorem write (alike : Alike layout window beside host other) (offset : Nat) (value : Word) :
    (replied other (beside.write other offset value)).1 =
        (replied host (window.write host offset value)).1 ∧
      Alike layout window beside (replied host (window.write host offset value)).2
        (replied other (beside.write other offset value)).2 := by
  unfold Window.write
  rw [alike.access, alike.base, alike.size, alike.contains_eq]
  split
  · exact ⟨rfl, alike⟩
  · split
    · refine ⟨rfl, alike.base, alike.size, alike.access, alike.stands, alike.stands', ?_⟩
      change (other.update _ _).contents _ = (host.update _ _).contents _
      rw [Host.contents_update, Host.contents_update, if_pos rfl, if_pos rfl, alike.contents]
    · exact ⟨rfl, alike⟩

theorem scan_eq (alike : Alike layout window beside host other) (target : ScanTarget)
    (mode : MatchMode) : beside.scan other target mode = window.scan host target mode := by
  have probes : beside.probe other target mode = window.probe host target mode := by
    funext offset
    unfold probe
    rw [alike.read_eq]
  unfold scan
  rw [probes, alike.size]

theorem survey_eq (alike : Alike layout window beside host other) (target : ScanTarget)
    (mode : MatchMode) : beside.survey other target mode = window.survey host target mode := by
  unfold survey
  simp only [alike.lacks_eq, alike.size, alike.scan_eq]

theorem dump_eq (alike : Alike layout window beside host other) (unit : Option PowerUnit) :
    beside.dump other unit = window.dump host unit := by
  have shown : beside.showRegister other unit = window.showRegister host unit := by
    funext register
    unfold showRegister
    rw [alike.load_eq]
  unfold dump
  rw [shown, alike.base]

theorem limitPlace_eq (alike : Alike layout window beside host other) (offset : Nat) :
    beside.limitPlace offset = window.limitPlace offset := by
  unfold limitPlace
  rw [alike.base]

end Alike
end Window

theorem CommandLine.openWindow_cases (same : Host.SameWindow host other layout) (access : Access) :
    (∃ fault, openWindow host layout access = .error fault ∧
        openWindow other layout access = .error fault) ∨
      ∃ window beside, openWindow host layout access = .ok window ∧
        openWindow other layout access = .ok beside ∧
        Window.Alike layout window beside host other := by
  unfold openWindow
  rw [same.discover_eq]
  cases discover host layout with
  | error fault => exact .inl ⟨fault, rfl, rfl⟩
  | ok published => exact Window.map_cases same.memory published.address access

end PackagePower
