import PackagePower.Proofs.Device.Discovery
import PackagePower.Proofs.Host.Agree
import PackagePower.Proofs.Text.ByteOrder

/-!
# Which bridge is found

Discovery accepts one bus function: the one at the customary address if that is a host bridge,
else the first by name of those that are. The function accepted decides the outcome, and what is
not looked at does not matter: neither the order of the entries nor entries behind the accepted
one.
-/

namespace PackagePower
namespace Bridge

variable {host later : Host} {directory path : Path} {name : String}

/-! ## The function that is accepted -/

/-- The function at `path` has the vendor and the class of a host bridge. -/
def IsBridge (host : Host) (path : Path) : Prop :=
  ∃ deviceClass, attribute? host (vendorFile path) = some 0x8086#32 ∧
    attribute? host (classFile path) = some deviceClass ∧
    deviceClass &&& 0xFFFF00#32 = 0x060000#32

theorem probe?_isSome_iff : (probe? host path).isSome ↔ IsBridge host path := by
  unfold probe? IsBridge isHostBridge
  cases attribute? host (vendorFile path) with
  | none => simp
  | some vendor =>
    cases attribute? host (classFile path) with
    | none => simp
    | some deviceClass => simp [Option.isSome_iff_exists]

/-- A host bridge that can be accepted: it has the customary name, or it is listed under a name
that is not hidden. -/
def Candidate (host : Host) (directory : Path) (name : String) : Prop :=
  IsBridge host (directory.child name) ∧
    (name = customaryName ∨ name ∈ host.children directory.names ∧ name.startsWith "." = false)

/-- The customary name, or else the first candidate by its bytes. -/
def Accepted (host : Host) (directory : Path) (name : String) : Prop :=
  Candidate host directory name ∧
    (name = customaryName ∨ ¬ IsBridge host (directory.child customaryName) ∧
      ∀ other, Candidate host directory other → Text.utf8 name ≤ Text.utf8 other)

theorem Accepted.unique {other : String} (first : Accepted host directory name)
    (second : Accepted host directory other) : name = other := by
  obtain ⟨candidate, customary | ⟨absent, least⟩⟩ := first
  · obtain ⟨_, customary' | ⟨absent, _⟩⟩ := second
    · exact customary.trans customary'.symm
    · exact (absent (customary ▸ candidate.1)).elim
  · obtain ⟨candidate', customary' | ⟨_, least'⟩⟩ := second
    · exact (absent (customary' ▸ candidate'.1)).elim
    · exact String.le_antisymm (Text.utf8_le_iff.1 (least _ candidate'))
        (Text.utf8_le_iff.1 (least' _ candidate))

theorem least?_eq_none {names : List String} (none : least? names = none) : names = [] := by
  cases names with
  | nil => rfl
  | cons name rest =>
    unfold least? at none
    rw [List.foldr_cons] at none
    split at none <;> cases none

theorem least?_eq_some {names : List String} (least : least? names = some name) :
    name ∈ names ∧ ∀ other ∈ names, name ≤ other := by
  induction names generalizing name with
  | nil => cases least
  | cons first rest ih =>
    unfold least? at least
    rw [List.foldr_cons] at least
    rw [List.forall_mem_cons]
    split at least
    · rename_i found
      cases least
      rw [least?_eq_none found]
      exact ⟨List.mem_cons_self, String.le_refl _, nofun⟩
    · rename_i second found
      obtain ⟨member, before⟩ := ih found
      by_cases ordered : first ≤ second
      · rw [if_pos ordered] at least
        cases least
        exact ⟨List.mem_cons_self, String.le_refl _, fun other later =>
          String.le_trans ordered (before other later)⟩
      · have after : second ≤ first := (String.le_total first second).resolve_left ordered
        rw [if_neg ordered] at least
        cases least
        exact ⟨List.mem_cons_of_mem _ member, after, before⟩

theorem least?_congr {names others : List String} (same : ∀ name, name ∈ others ↔ name ∈ names) :
    least? others = least? names := by
  cases least : least? names with
  | none =>
    have empty : others = [] := by
      apply List.eq_nil_iff_forall_not_mem.2
      intro name member
      rw [same, least?_eq_none least] at member
      cases member
    rw [empty]
    rfl
  | some name =>
    obtain ⟨inside, first⟩ := least?_eq_some least
    cases least' : least? others with
    | none =>
      rw [← same, least?_eq_none least'] at inside
      cases inside
    | some name' =>
      obtain ⟨inside', first'⟩ := least?_eq_some least'
      exact congrArg some (String.le_antisymm (first' _ ((same _).2 inside))
        (first _ ((same _).1 inside')))

theorem list_of_directory {names : List String} (readable : host.find? names = some .directory) :
    host.list names = .ok (host.children names) := by
  unfold Host.list Host.lookup
  rw [Host.find?_eq_directory_iff.1 readable]

/-- A bridge is accepted and found, or there is none to be accepted. -/
theorem find_cases (readable : host.find? directory.names = some .directory) :
    (∃ name bridge, Accepted host directory name ∧ bridge.path = directory.child name ∧
        find host directory = .ok bridge) ∨
      (∀ name, ¬ Candidate host directory name) ∧
        find host directory = .error (.noBridge directory.text) := by
  unfold find
  cases customary : probe? host (directory.child customaryName) with
  | some bridge =>
    have accepted : IsBridge host (directory.child customaryName) :=
      probe?_isSome_iff.1 (customary ▸ rfl)
    exact .inl ⟨_, bridge, ⟨⟨accepted, .inl rfl⟩, .inl rfl⟩, path_of_probe? customary, rfl⟩
  | none =>
    have absent : ¬ IsBridge host (directory.child customaryName) := by
      rw [← probe?_isSome_iff, customary]
      exact Bool.false_ne_true
    rw [list_of_directory readable]
    dsimp only
    -- No candidate has the customary name, so the candidates are the names left by the filter.
    generalize listed : (host.children directory.names).filter (fun name =>
      !name.startsWith "." && (probe? host (directory.child name)).isSome) = candidates
    have member (name : String) : name ∈ candidates ↔ Candidate host directory name := by
      rw [← listed, List.mem_filter, Bool.and_eq_true, probe?_isSome_iff, Bool.not_eq_true']
      constructor
      · intro kept
        obtain ⟨member, shown, bridge⟩ := kept
        exact ⟨bridge, .inr ⟨member, shown⟩⟩
      · intro candidate
        obtain ⟨bridge, rfl | ⟨member, shown⟩⟩ := candidate
        · exact (absent bridge).elim
        · exact ⟨member, shown, bridge⟩
    cases least : least? candidates with
    | none =>
      refine .inr ⟨fun name candidate => ?_, rfl⟩
      rw [← member, least?_eq_none least] at candidate
      cases candidate
    | some name =>
      obtain ⟨inside, first⟩ := least?_eq_some least
      have candidate := (member name).1 inside
      obtain ⟨bridge, probed⟩ := Option.isSome_iff_exists.1 (probe?_isSome_iff.2 candidate.1)
      refine .inl ⟨name, bridge, ⟨candidate, .inr ⟨absent, ?_⟩⟩, path_of_probe? probed, ?_⟩
      · intro other later
        exact Text.utf8_le_iff.2 (first other ((member other).2 later))
      · rw [Option.bind_some, probed]

/-! ## What the accepted function says -/

/-- What comes of the configuration space `config` of an accepted function. -/
inductive Resolved (host : Host) (config : Path) :
    Except DiscoveryFault PublishedWindow → Prop where
  | closed {cause : IoCause} : host.lookup config.names = .error cause →
      Resolved host config (.error (.configOpen config.text cause))
  | directory : host.find? config.names = some .directory →
      Resolved host config (.error (.configRead config.text 0x48 .isDirectory))
  | short {contents : Contents} : host.find? config.names = some (.file contents) →
      contents.size < 0x48 + 8 → contents.size - 0x48 ≤ 7 →
      Resolved host config (.error (.configShort config.text 0x48 (contents.size - 0x48)))
  | disabled {contents : Contents} {raw : Word} :
      host.find? config.names = some (.file contents) → 0x48 + 8 ≤ contents.size →
      raw = Word.ofBytes contents.byte 0x48 → raw.getLsbD 0 = false →
      Resolved host config (.error (.disabled raw))
  | zeroBase {contents : Contents} {raw : Word} :
      host.find? config.names = some (.file contents) → 0x48 + 8 ≤ contents.size →
      raw = Word.ofBytes contents.byte 0x48 → raw.getLsbD 0 = true →
      raw &&& ~~~0xFFF#64 = 0 →
      Resolved host config (.error (.zeroBase raw))
  | published {contents : Contents} {raw : Word} :
      host.find? config.names = some (.file contents) → 0x48 + 8 ≤ contents.size →
      raw = Word.ofBytes contents.byte 0x48 → raw.getLsbD 0 = true →
      raw &&& ~~~0xFFF#64 ≠ 0 →
      Resolved host config (.ok ⟨raw &&& ~~~0xFFF#64, true, raw, config⟩)

theorem readWord_config (host : Host) (file : FileId) :
    host.readWord (.file file) WindowBase.configOffset = .ok ((host.contents file).read 0x48) :=
  if_neg (by decide)

theorem resolved_publishedWindow (bridge : Bridge) (host : Host) :
    Resolved host bridge.configuration (bridge.publishedWindow host) := by
  unfold publishedWindow readConfiguration
  dsimp only
  cases found : host.find? bridge.configuration.names with
  | none =>
    rw [Host.openNode_of_none found]
    exact .closed (Host.lookup_of_none found)
  | some node =>
    cases node with
    | directory =>
      rw [Host.openNode_of_directory found]
      exact .directory found
    | file contents =>
      obtain ⟨file, opened, rfl⟩ := Host.openNode_of_file found .readOnly
      rw [opened]
      dsimp only
      rw [readWord_config]
      unfold Contents.read
      by_cases whole : 0x48 + 8 ≤ (host.contents file).size
      · rw [if_pos whole]
        generalize raw_eq : Word.ofBytes (host.contents file).byte 0x48 = raw
        simp only [bind, Except.bind]
        unfold WindowBase.defect?
        cases enabled : (WindowBase.decode raw).enabled with
        | false => exact .disabled found whole raw_eq.symm enabled
        | true =>
          by_cases zero : (WindowBase.decode raw).address = 0
          · simp only [zero]
            exact .zeroBase found whole raw_eq.symm enabled zero
          · simp only [zero]
            exact .published found whole raw_eq.symm enabled zero
      · rw [if_neg whole]
        exact .short found (by omega) (by omega)

theorem find_of_accepted (readable : host.find? directory.names = some .directory)
    (accepted : Accepted host directory name) :
    ∃ bridge, bridge.path = directory.child name ∧ find host directory = .ok bridge := by
  rcases find_cases readable with ⟨other, bridge, found, place, ended⟩ | ⟨none, _⟩
  · rw [accepted.unique found]
    exact ⟨bridge, place, ended⟩
  · exact (none name accepted.1).elim

end Bridge

variable {host : Host} {layout : Layout}

theorem discover_of_find {bridge : Bridge}
    (found : Bridge.find host layout.busFunctions = .ok bridge) :
    discover host layout = (bridge.publishedWindow host).mapError .discovery := by
  unfold discover
  rw [found]
  rfl

theorem discover_of_no_bridge {cause : DiscoveryFault}
    (missed : Bridge.find host layout.busFunctions = .error cause) :
    discover host layout = .error (.discovery cause) := by
  unfold discover
  rw [missed]
  rfl

end PackagePower
