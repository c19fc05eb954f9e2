import PackagePower.Proofs.Device.Bridge

/-!
# What the listing does not decide

Discovery looks up names in a directory and takes the least. So the order in which the directory
lists them does not matter, and neither do further entries that are no bridges, that are hidden,
or that come after the bridge that is accepted.
-/

namespace PackagePower

variable {host later : Host} {directory path : Path} {name : String} {added : String → Prop}

/-! ## The order of the entries -/

theorem lookup_perm {α β : Type} [BEq α] [LawfulBEq α] {entries others : List (α × β)}
    (perm : entries.Perm others) (distinct : (entries.map Prod.fst).Nodup) (key : α) :
    others.lookup key = entries.lookup key := by
  induction perm with
  | nil => rfl
  | cons entry _ ih =>
    obtain ⟨first, told⟩ := entry
    rw [List.map_cons, List.nodup_cons] at distinct
    rw [List.lookup_cons, List.lookup_cons, ih distinct.2]
  | swap entry other rest =>
    obtain ⟨first, told⟩ := entry
    obtain ⟨second, told'⟩ := other
    have apart : second ≠ first := by
      intro same
      rw [same, List.map_cons, List.map_cons, List.nodup_cons] at distinct
      exact distinct.1 List.mem_cons_self
    simp only [List.lookup_cons]
    by_cases here : key = first
    · have missed : (key == second) = false := beq_false_of_ne (here ▸ apart.symm)
      rw [missed]
    · have missed : (key == first) = false := beq_false_of_ne here
      rw [missed]
  | trans before _ ih ih' =>
    exact (ih' ((before.map Prod.fst).nodup_iff.1 distinct)).trans (ih distinct)

theorem find?_perm {entries : List (List String × Node Nat)} (perm : entries.Perm host.entries)
    (distinct : (host.entries.map Prod.fst).Nodup) (names : List String) :
    ({ host with entries } : Host).find? names = host.find? names := by
  have handle : ({ host with entries } : Host).handle? names = host.handle? names :=
    congrArg (Option.map (Node.map (FileId.mk names))) (lookup_perm perm.symm distinct names)
  unfold Host.find?
  rw [handle]
  rfl

namespace Bridge

/-! ## More entries -/

/-- `later` is `host` with more entries in a directory: names that nothing was found at, and
whatever is below them. -/
structure Adds (host later : Host) (directory : Path) (added : String → Prop) : Prop where
  fresh : ∀ name, added name → host.find? (directory.child name).names = none
  rest : ∀ names, (∀ name, added name → ¬ (directory.child name).names <+: names) →
    later.find? names = host.find? names

/-- An added entry that discovery passes over: no bridge, hidden, or after the accepted name. -/
def Passed (host later : Host) (directory : Path) (name : String) : Prop :=
  name ≠ customaryName ∧ (¬ IsBridge later (directory.child name) ∨ name.startsWith "." = true ∨
    ∃ accepted, Accepted host directory accepted ∧ Text.utf8 accepted < Text.utf8 name)

namespace Adds

theorem agree (adds : Adds host later directory added) (kept : ¬ added name) (file : String) :
    Host.AgreeAt host later ((directory.child name).child file).names := by
  intro part within
  apply adds.rest
  intro new isNew reached
  have prefixed := reached.trans within
  rw [Path.names_child, Path.names_child, Path.names_child, List.append_assoc,
    List.prefix_append_right_inj, List.singleton_append, List.cons_prefix_cons] at prefixed
  exact kept (prefixed.1 ▸ isNew)

theorem readable (adds : Adds host later directory added) :
    later.find? directory.names = host.find? directory.names := by
  apply adds.rest
  intro new _ reached
  have length := reached.length_le
  rw [Path.names_child, List.length_append, List.length_singleton] at length
  omega

theorem isBridge_iff (adds : Adds host later directory added) (kept : ¬ added name) :
    IsBridge later (directory.child name) ↔ IsBridge host (directory.child name) := by
  have same (file : String) : attribute? later ((directory.child name).child file) =
      attribute? host ((directory.child name).child file) := by
    unfold attribute?
    rw [(adds.agree kept file).readText_eq]
  unfold IsBridge vendorFile classFile
  rw [same, same]

theorem candidate_iff (adds : Adds host later directory added) (kept : ¬ added name) :
    Candidate later directory name ↔ Candidate host directory name := by
  have here := adds.agree kept "config" (directory.child name).names (List.prefix_append _ _)
  unfold Candidate
  rw [adds.isBridge_iff kept, Host.mem_children_iff, Host.mem_children_iff, ← Path.names_child,
    here]

theorem not_added (adds : Adds host later directory added)
    (passed : ∀ name, added name → Passed host later directory name)
    (candidate : Candidate host directory name) : ¬ added name := by
  intro isAdded
  obtain ⟨_, customary | ⟨listed, _⟩⟩ := candidate
  · exact (passed name isAdded).1 customary
  · exact Host.mem_children_iff.1 listed (adds.fresh name isAdded)

/-- An added candidate comes after an accepted name. -/
theorem behind (passed : Passed host later directory name)
    (candidate : Candidate later directory name) :
    ∃ accepted, Accepted host directory accepted ∧ Text.utf8 accepted < Text.utf8 name := by
  obtain ⟨other, none | hidden | found⟩ := passed
  · exact (none candidate.1).elim
  · obtain ⟨_, customary | ⟨_, shown⟩⟩ := candidate
    · exact (other customary).elim
    · rw [hidden] at shown
      cases shown
  · exact found

theorem accepted (adds : Adds host later directory added)
    (passed : ∀ name, added name → Passed host later directory name)
    (accepted : Accepted host directory name) : Accepted later directory name := by
  have kept := adds.not_added passed accepted.1
  refine ⟨(adds.candidate_iff kept).2 accepted.1, ?_⟩
  refine accepted.2.imp id fun found => ?_
  obtain ⟨absent, least⟩ := found
  have customary : ¬ added customaryName := fun isAdded => (passed _ isAdded).1 rfl
  refine ⟨fun bridge => absent ((adds.isBridge_iff customary).1 bridge), ?_⟩
  intro other candidate
  by_cases isAdded : added other
  · obtain ⟨_, found, before⟩ := behind (passed other isAdded) candidate
    rw [accepted.unique found]
    exact List.le_of_lt before
  · exact least other ((adds.candidate_iff isAdded).1 candidate)

end Adds

theorem publishedWindow_eq {bridge other : Bridge} (place : other.path = bridge.path)
    (same : Host.SameAt host later bridge.configuration.names) :
    other.publishedWindow later = bridge.publishedWindow host := by
  have here := same.here
  have config : other.configuration = bridge.configuration := congrArg configurationFile place
  have read : other.readConfiguration later WindowBase.configOffset =
      bridge.readConfiguration host WindowBase.configOffset := by
    unfold readConfiguration
    rw [config]
    dsimp only
    cases found : host.find? bridge.configuration.names with
    | none =>
      rw [Host.openNode_of_none found, Host.openNode_of_none (here.trans found),
        same.below]
    | some node =>
      cases node with
      | directory =>
        rw [Host.openNode_of_directory found, Host.openNode_of_directory (here.trans found)]
        rfl
      | file contents =>
        obtain ⟨file, opened, kept⟩ := Host.openNode_of_file found .readOnly
        obtain ⟨file', opened', kept'⟩ := Host.openNode_of_file (here.trans found) .readOnly
        rw [opened, opened']
        dsimp only
        rw [readWord_config, readWord_config, kept, kept']
  unfold publishedWindow
  rw [read, config]

end Bridge

variable {layout : Layout}

theorem discover_adds (readable : host.find? layout.busFunctions.names = some .directory)
    (adds : Bridge.Adds host later layout.busFunctions added)
    (passed : ∀ name, added name → Bridge.Passed host later layout.busFunctions name) :
    discover later layout = discover host layout := by
  have readable' := adds.readable.trans readable
  rcases Bridge.find_cases readable with ⟨name, bridge, accepted, place, found⟩ | ⟨none, missed⟩
  · obtain ⟨other, place', found'⟩ :=
      Bridge.find_of_accepted readable' (adds.accepted passed accepted)
    rw [discover_of_find found, discover_of_find found']
    refine congrArg _ (Bridge.publishedWindow_eq (place'.trans place.symm) ?_)
    unfold Bridge.configuration
    rw [place]
    exact (adds.agree (adds.not_added passed accepted.1) "config").same
  · rcases Bridge.find_cases readable' with ⟨name, _, accepted, _⟩ | ⟨_, missed'⟩
    · by_cases isAdded : added name
      · obtain ⟨_, found, _⟩ := Bridge.Adds.behind (passed name isAdded) accepted.1
        exact (none _ found.1).elim
      · exact (none name ((adds.candidate_iff isAdded).1 accepted.1)).elim
    · rw [discover_of_no_bridge missed, discover_of_no_bridge missed']

/-! ## What discovery comes to -/

/-- An address without its low twelve bits is a multiple of a page. -/
theorem dvd_addressBits (raw : Word) : Window.pageSize ∣ (raw &&& ~~~0xFFF#64).toNat := by
  have low : ∀ i < 12, (~~~0xFFF#64).getLsbD i = false := by decide
  apply Nat.dvd_of_mod_eq_zero
  change (raw &&& ~~~0xFFF#64).toNat % 2 ^ 12 = 0
  apply Nat.eq_of_testBit_eq
  intro i
  rw [Nat.testBit_mod_two_pow, BitVec.testBit_toNat, BitVec.getLsbD_and, Nat.zero_testBit]
  by_cases below : i < 12
  · rw [low i below, Bool.and_false, Bool.and_false]
  · rw [decide_eq_false below, Bool.false_and]

theorem resolved_of_accepted (readable : host.find? layout.busFunctions.names = some .directory)
    (accepted : Bridge.Accepted host layout.busFunctions name) : ∃ outcome,
      Bridge.Resolved host (Bridge.configurationFile (layout.busFunctions.child name)) outcome ∧
        discover host layout = outcome.mapError .discovery := by
  obtain ⟨bridge, place, found⟩ := Bridge.find_of_accepted readable accepted
  refine ⟨bridge.publishedWindow host, ?_, discover_of_find found⟩
  rw [← place]
  exact Bridge.resolved_publishedWindow bridge host

/-- Discovery accepts one bridge, by name and not by the order of the entries, and reports what
its configuration space says; entries that it passes over make no difference. -/
theorem discovery_accepts_one (host : Host) (layout : Layout)
    (readable : host.find? layout.busFunctions.names = some .directory) :
    (∀ name, Bridge.Accepted host layout.busFunctions name → ∃ outcome,
      Bridge.Resolved host (Bridge.configurationFile (layout.busFunctions.child name)) outcome ∧
        discover host layout = outcome.mapError .discovery) ∧
    (∀ name, Bridge.Candidate host layout.busFunctions name →
      ∃ accepted, ∀ other, Bridge.Accepted host layout.busFunctions other ↔ other = accepted) ∧
    (discover host layout = .error (.discovery (.noBridge layout.busFunctions.text)) ↔
      ∀ name, ¬ Bridge.Candidate host layout.busFunctions name) ∧
    (∀ window, discover host layout = .ok window →
      window.address = window.raw &&& ~~~0xFFF#64 ∧ window.address ≠ 0 ∧
        Window.pageSize ∣ window.address.toNat ∧ window.enabled = true ∧
        window.raw.getLsbD 0 = true) ∧
    (∀ entries, entries.Perm host.entries → (host.entries.map Prod.fst).Nodup →
      discover { host with entries } layout = discover host layout) ∧
    ∀ later added, Bridge.Adds host later layout.busFunctions added →
      (∀ name, added name → Bridge.Passed host later layout.busFunctions name) →
      discover later layout = discover host layout := by
  refine ⟨fun name => resolved_of_accepted readable, ?_, ?_, ?_, ?_, ?_⟩
  · intro name candidate
    rcases Bridge.find_cases readable with ⟨first, _, accepted, _⟩ | ⟨none, _⟩
    · refine ⟨first, fun other => ⟨fun found => found.unique accepted, ?_⟩⟩
      rintro rfl
      exact accepted
    · exact (none name candidate).elim
  · rcases Bridge.find_cases readable with ⟨name, bridge, accepted, _⟩ | ⟨none, missed⟩
    · obtain ⟨outcome, resolved, found⟩ := resolved_of_accepted readable accepted
      rw [found]
      constructor
      · intro missed
        cases resolved <;> cases missed
      · intro none
        exact (none name accepted.1).elim
    · exact ⟨fun _ => none, fun _ => discover_of_no_bridge missed⟩
  · intro window found
    rcases Bridge.find_cases readable with ⟨name, bridge, accepted, _⟩ | ⟨none, missed⟩
    · obtain ⟨outcome, resolved, same⟩ := resolved_of_accepted readable accepted
      rw [same] at found
      cases resolved with
      | published _ _ _ enabled address =>
        cases found
        exact ⟨rfl, address, dvd_addressBits _, rfl, enabled⟩
      | closed | directory | short | disabled | zeroBase => cases found
    · rw [discover_of_no_bridge missed] at found
      cases found
  · -- The same entries in another order add nothing.
    intro entries perm distinct
    have adds : Bridge.Adds host { host with entries } layout.busFunctions fun _ => False :=
      ⟨fun _ => False.elim, fun names _ => find?_perm perm distinct names⟩
    exact discover_adds readable adds fun _ => False.elim
  · intro later added adds passed
    exact discover_adds readable adds passed

/-- A machine with two bridges, neither at the customary address, and one that is hidden. -/
def twoBridges : Host where
  entries := [
    (["sys", "bus", "pci", "devices"], .directory),
    (["sys", "bus", "pci", "devices", "0000:80:00.0"], .directory),
    (["sys", "bus", "pci", "devices", "0000:80:00.0", "vendor"], .file 0),
    (["sys", "bus", "pci", "devices", "0000:80:00.0", "class"], .file 1),
    (["sys", "bus", "pci", "devices", ".0000:40:00.0"], .directory),
    (["sys", "bus", "pci", "devices", ".0000:40:00.0", "vendor"], .file 2),
    (["sys", "bus", "pci", "devices", ".0000:40:00.0", "class"], .file 3),
    (["sys", "bus", "pci", "devices", "0000:40:00.0"], .directory),
    (["sys", "bus", "pci", "devices", "0000:40:00.0", "vendor"], .file 4),
    (["sys", "bus", "pci", "devices", "0000:40:00.0", "class"], .file 5),
    (["sys", "bus", "pci", "devices", "0000:40:00.0", "config"], .file 6)]
  files := [
    (⟨["sys", "bus", "pci", "devices", "0000:80:00.0", "vendor"], 0⟩, .ofText "0x8086\n"),
    (⟨["sys", "bus", "pci", "devices", "0000:80:00.0", "class"], 1⟩, .ofText "0x060000\n"),
    (⟨["sys", "bus", "pci", "devices", ".0000:40:00.0", "vendor"], 2⟩, .ofText "0x8086\n"),
    (⟨["sys", "bus", "pci", "devices", ".0000:40:00.0", "class"], 3⟩, .ofText "0x060000\n"),
    (⟨["sys", "bus", "pci", "devices", "0000:40:00.0", "vendor"], 4⟩, .ofText "0x8086\n"),
    (⟨["sys", "bus", "pci", "devices", "0000:40:00.0", "class"], 5⟩, .ofText "0x060000\n"),
    (⟨["sys", "bus", "pci", "devices", "0000:40:00.0", "config"], 6⟩,
      (Contents.zeros 0x100).write 0x48 0xFED10001#64)]
  made := 7

theorem twoBridges_accepts_one :
    ∃ window, discover twoBridges { root := "host" } = .ok window ∧
      window.address = 0xFED10000#64 ∧
      discover { twoBridges with entries := twoBridges.entries.reverse } { root := "host" } =
        .ok window := by
  obtain ⟨_, _, _, _, order, _⟩ := discovery_accepts_one twoBridges { root := "host" } rfl
  have address : (discover twoBridges { root := "host" }).toOption.map PublishedWindow.address =
      some 0xFED10000#64 := by decide +kernel
  cases found : discover twoBridges { root := "host" } with
  | error fault =>
    rw [found] at address
    cases address
  | ok window =>
    rw [found] at address
    refine ⟨window, rfl, Option.some.inj address, ?_⟩
    rw [order _ (List.reverse_perm _) (by decide), found]

end PackagePower
