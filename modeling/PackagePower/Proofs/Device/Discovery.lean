import PackagePower.CommandLine.Plan
import PackagePower.Proofs.Host.Update

/-!
# Opening the window again

Discovery looks at files of bus functions only. A write to another file, such as memory, leaves
its outcome as it was, so a run over what an earlier run left behind finds the same window.
-/

namespace PackagePower

variable {host : Host} {file : FileId} {change : Contents → Contents}

namespace Bridge

theorem probe?_congr {other : Host} {path : Path}
    (read : ∀ used ∈ consulted path, other.readText used.names = host.readText used.names) :
    probe? other path = probe? host path := by
  unfold probe? attribute?
  rw [read (vendorFile path) (by simp [consulted]), read (classFile path) (by simp [consulted])]

theorem probe?_update {path : Path} (apart : ∀ used ∈ consulted path, used.names ≠ file.names) :
    probe? (host.update file change) path = probe? host path :=
  probe?_congr fun used member => Host.readText_update (apart used member)

theorem path_of_probe? {path : Path} {bridge : Bridge} (probed : probe? host path = some bridge) :
    bridge.path = path := by
  unfold probe? at probed
  obtain ⟨vendor, _, rest⟩ := Option.bind_eq_some_iff.1 probed
  obtain ⟨deviceClass, _, last⟩ := Option.bind_eq_some_iff.1 rest
  split at last
  · cases last
    rfl
  · cases last

variable {directory : Path}

theorem find_update
    (apart : ∀ name, ∀ used ∈ consulted (directory.child name), used.names ≠ file.names) :
    find (host.update file change) directory = find host directory := by
  have probes name : probe? (host.update file change) (directory.child name) =
      probe? host (directory.child name) := probe?_update (apart name)
  have listed : (host.update file change).list directory.names = host.list directory.names := rfl
  unfold find
  simp only [probes, listed]

theorem path_of_find {bridge : Bridge} (found : find host directory = .ok bridge) :
    ∃ name, bridge.path = directory.child name := by
  unfold find at found
  split at found
  · rename_i probed
    cases found
    exact ⟨customaryName, path_of_probe? probed⟩
  · split at found
    · cases found
    · dsimp only at found
      split at found
      · rename_i probed
        cases found
        obtain ⟨name, _, probed⟩ := Option.bind_eq_some_iff.1 probed
        exact ⟨name, path_of_probe? probed⟩
      · cases found

theorem publishedWindow_update {bridge : Bridge} (apart : bridge.configuration.names ≠ file.names) :
    bridge.publishedWindow (host.update file change) = bridge.publishedWindow host := by
  have read : bridge.readConfiguration (host.update file change) WindowBase.configOffset =
      bridge.readConfiguration host WindowBase.configOffset := by
    unfold readConfiguration
    dsimp only
    rw [Host.openNode_update]
    cases opened : host.openNode bridge.configuration.names .readOnly with
    | error cause => rfl
    | ok handle => simp only [Host.readWord_update apart opened]
  unfold publishedWindow
  rw [read]

end Bridge

theorem discover_update {layout : Layout} (memory : file.names = layout.memory.names) :
    discover (host.update file change) layout = discover host layout := by
  have apart name : ∀ used ∈ Bridge.consulted (layout.busFunctions.child name),
      used.names ≠ file.names := by
    rw [memory]
    simp [Bridge.consulted, Bridge.vendorFile, Bridge.classFile, Bridge.configurationFile,
      Path.child, Layout.busFunctions, Layout.memory]
  unfold discover
  rw [Bridge.find_update apart]
  cases found : Bridge.find host layout.busFunctions with
  | error cause => rfl
  | ok bridge =>
    obtain ⟨name, place⟩ := Bridge.path_of_find found
    have configuration : bridge.configuration.names ≠ file.names := by
      refine apart name _ ?_
      rw [Bridge.configuration, place]
      simp [Bridge.consulted]
    change (bridge.publishedWindow _).mapError _ = (bridge.publishedWindow _).mapError _
    rw [Bridge.publishedWindow_update configuration]

theorem bind_eq_ok {α β : Type} {first : Except Fault α} {f : α → Except Fault β} {value : β}
    (ended : (first >>= f) = .ok value) : ∃ middle, first = .ok middle ∧ f middle = .ok value := by
  cases first with
  | error fault => cases ended
  | ok middle => exact ⟨middle, rfl, ended⟩

theorem RegisterFile.openFor_eq_ok {layout : Layout} {access : Access} {file : RegisterFile}
    (opened : RegisterFile.openFor host layout access = .ok file) :
    host.handle? layout.registerFile.names = some file.handle ∧ file.access = access := by
  unfold RegisterFile.openFor at opened
  dsimp only at opened
  split at opened
  · cases opened
  · rename_i stands
    cases opened
    exact ⟨Host.handle?_of_openNode stands, rfl⟩

theorem RegisterFile.names_of_openFor {layout : Layout} {access : Access} {file : RegisterFile}
    {id : FileId} (opened : RegisterFile.openFor host layout access = .ok file)
    (handle : file.handle = .file id) : id.names = layout.registerFile.names := by
  have stands := (RegisterFile.openFor_eq_ok opened).1
  rw [handle] at stands
  exact Host.names_of_handle? stands

theorem Window.mappable_eq_ok {handle : Handle} {base : Word} {size : Nat} {memory : FileId}
    (mapped : Window.mappable handle base size = .ok memory) : handle = .file memory := by
  unfold Window.mappable at mapped
  split at mapped
  · cases mapped
  · split at mapped
    · cases mapped
    · split at mapped
      · cases mapped
      · split at mapped
        · cases mapped
        · cases handle with
          | directory => cases mapped
          | file other =>
            dsimp only at mapped
            split at mapped
            · cases mapped
            · cases mapped
              rfl

theorem Window.map_eq_ok {layout : Layout} {base : Word} {access : Access} {window : Window}
    (mapped : Window.map host layout base access = .ok window) :
    host.handle? layout.memory.names = some (.file window.memory) ∧
      window.size = layout.windowSize ∧ window.access = access := by
  unfold Window.map at mapped
  dsimp only at mapped
  cases opened : host.openNode layout.memory.names access with
  | error cause =>
    rw [opened] at mapped
    cases mapped
  | ok handle =>
    rw [opened] at mapped
    dsimp only at mapped
    cases mappable : Window.mappable handle base layout.windowSize with
    | error cause =>
      rw [mappable] at mapped
      cases mapped
    | ok memory =>
      rw [mappable] at mapped
      cases mapped
      have stands := Host.handle?_of_openNode opened
      rw [Window.mappable_eq_ok mappable] at stands
      exact ⟨stands, rfl, rfl⟩

theorem Window.base_of_map {layout : Layout} {base : Word} {access : Access} {window : Window}
    (mapped : Window.map host layout base access = .ok window) : window.base = base := by
  unfold Window.map at mapped
  dsimp only at mapped
  split at mapped
  · cases mapped
  · split at mapped
    · cases mapped
    · cases mapped
      rfl

namespace CommandLine

theorem openWindow_update {layout : Layout} (memory : file.names = layout.memory.names)
    (access : Access) : openWindow (host.update file change) layout access =
      openWindow host layout access := by
  unfold openWindow
  rw [discover_update memory]
  rfl

/-- A window is opened where one is published. -/
theorem published_of_openWindow {layout : Layout} {access : Access} {window : Window}
    (opened : openWindow host layout access = .ok window) :
    ∃ published, discover host layout = .ok published ∧
      Window.map host layout published.address access = .ok window := by
  obtain ⟨published, found, mapped⟩ := bind_eq_ok opened
  exact ⟨published, found, mapped⟩

theorem openWindow_eq_ok {layout : Layout} {access : Access} {window : Window}
    (opened : openWindow host layout access = .ok window) :
    host.handle? layout.memory.names = some (.file window.memory) ∧
      window.size = layout.windowSize ∧ window.access = access := by
  obtain ⟨_, _, mapped⟩ := published_of_openWindow opened
  exact Window.map_eq_ok mapped

end CommandLine
end PackagePower
