import PackagePower.CommandLine.Invocation
import PackagePower.Proofs.CommandLine.Understood
import PackagePower.Proofs.Device.Discovery
import PackagePower.Proofs.Device.Window
import PackagePower.Proofs.Host.Contents
import PackagePower.Proofs.Program.Mortal
import PackagePower.Proofs.Quantity

/-!
# What the restore command restores

The line that a run prints carries the value and not the place: run again, it writes at the
customary offset, where memory gets that far. So it undoes the run exactly if the run was at that
offset, or if neither of the two changes a file.
-/

namespace PackagePower.CommandLine

/-! ## Runs of any tool -/

section
variable (tool : Tool) {invocation : Invocation} {host : Host} {layout : Layout} (command : String)
  (terminal : Terminal)

theorem Tool.run_of_parse {arguments : List String}
    (parsed : tool.parse arguments = some invocation) :
    tool.run arguments host layout command terminal =
      invocation.run tool host layout command terminal := by
  unfold Tool.run
  rw [parsed]

/-- What keeps the plan from being made is the fault of the run. -/
theorem Invocation.status_of_fault {fault : Fault}
    (failed : (invocation.prepare host layout command).2 = .error fault) :
    (invocation.run tool host layout command terminal).status = fault.exitStatus := by
  unfold Invocation.run
  generalize invocation.prepare host layout command = prepared at failed ⊢
  obtain ⟨warnings, plan⟩ := prepared
  cases failed
  rfl

end

namespace LimitWriter

/-! ## Arguments -/

/-- The arguments on the line that a run prints. -/
def restoreArguments (found : Word) : List String := ["--restore", found.text]

theorem plain_text (value : Word) : Form.ofArgument value.text = .plain := by
  unfold Form.ofArgument
  rw [Word.toList_text]
  rfl

theorem parse_restoreArguments (found : Word) : parse (restoreArguments found) =
    some { order := .restore found, fixedScale := false, offset := none, verbose := false } := by
  have given : CommandLine.parse specs (restoreArguments found) =
      some [{ id := .restore, values := [found.text] }] := by
    have marked : Form.ofArgument "--restore" = .long "restore" none := rfl
    simp [CommandLine.parse, restoreArguments, CommandLine.read, marked, specs, start,
      Pending.accepts, plain_text, occurrences]
  unfold parse
  rw [given]
  simp [valuesOf, valueOf, Quantity.word_text, orderOf, isGiven, occurrences, Except.toOption]

theorem aligned_of_offset {text : String} {offset : Nat}
    (read : Quantity.offset text = .ok offset) : offset % 8 = 0 := by
  unfold Quantity.offset at read
  cases word : Quantity.word text with
  | error fault =>
    rw [word] at read
    cases read
  | ok value =>
    rw [word] at read
    change (if value.toNat % 8 = 0 then Except.ok value.toNat
      else Except.error (Fault.parse (.unaligned text))) = Except.ok offset at read
    split at read
    · rename_i aligned
      cases read
      exact aligned
    · cases read

theorem aligned_of_parse {arguments : List String} {options : LimitWriter} {offset : Nat}
    (parsed : parse arguments = some options) (placed : options.offset = some offset) :
    offset % 8 = 0 := by
  obtain ⟨given, _, understood⟩ := parse_eq_some_iff.1 parsed
  have found := understood.offset
  rw [placed] at found
  obtain ⟨text, _, _, read⟩ := valueOf_eq_some_iff.1 found
  exact aligned_of_offset read

/-! ## Runs -/

/-- Where in the window a run works. -/
def place (options : LimitWriter) (layout : Layout) : Nat :=
  options.offset.getD layout.limitOffset

/-- The run once the window is open. -/
def carriedOut (options : LimitWriter) (host : Host) (layout : Layout) (command : String)
    (terminal : Terminal) (window : Window) : Except Fault Unit × Run (Terminal × Host) :=
  (discard (options.order.run (options.unit host layout).1
      (window.limitPlace (options.place layout)) command)).run
    (Terminal.operator.at ((window.station (options.place layout) (.ofLayout layout)).ending
      (window.lacks host (options.place layout))))
    { world := (terminal, host) }

variable {arguments : List String} {options : LimitWriter} {host : Host} {layout : Layout}
  {window : Window} (command : String) (terminal : Terminal)

/-- A run comes to a plan exactly if the window opens. -/
theorem prepare_eq (options : LimitWriter) (host : Host) (layout : Layout) (command : String) :
    ((Invocation.limitWriter options).prepare host layout command).2 =
      (openWindow host layout .readWrite).map fun window =>
        { station := (window.station (options.place layout) (.ofLayout layout)).ending
            (window.lacks host (options.place layout))
          plan := .single (discard (options.order.run (options.unit host layout).1
            (window.limitPlace (options.place layout)) command)) } := by
  -- Opening the window reads all of the layout but the offset.
  have moved : openWindow host { layout with limitOffset := options.place layout } .readWrite =
      openWindow host layout .readWrite := rfl
  change (openWindow host { layout with limitOffset := options.place layout } .readWrite >>= _) = _
  rw [moved]
  cases openWindow host layout .readWrite <;> rfl

theorem run_opened (parsed : parse arguments = some options)
    (opened : openWindow host layout .readWrite = .ok window) :
    ∃ err warnings, Tool.limitWriter.run arguments host layout command terminal =
      { status := statusOf (options.carriedOut host layout command terminal window).1
        out := String.join
          ((options.carriedOut host layout command terminal window).2.history.map shownText)
        err, warnings
        host := (options.carriedOut host layout command terminal window).2.world.2 } := by
  have asked : Tool.limitWriter.parse arguments = some (.limitWriter options) :=
    congrArg (Option.map Invocation.limitWriter) parsed
  have planned := prepare_eq options host layout command
  rw [opened] at planned
  unfold Tool.run
  rw [asked]
  unfold Invocation.run
  dsimp only
  generalize (Invocation.limitWriter options).prepare host layout command = prepared at planned ⊢
  obtain ⟨warnings, plan⟩ := prepared
  cases planned
  exact ⟨_, _, rfl⟩

theorem exitStatus_ne_zero (fault : Fault) : fault.exitStatus ≠ 0 := by
  unfold Fault.exitStatus
  split <;> decide

theorem run_closed {fault : Fault} (parsed : parse arguments = some options)
    (closed : openWindow host layout .readWrite = .error fault) :
    (Tool.limitWriter.run arguments host layout command terminal).status = fault.exitStatus := by
  have asked : Tool.limitWriter.parse arguments = some (.limitWriter options) :=
    congrArg (Option.map Invocation.limitWriter) parsed
  rw [Tool.run_of_parse .limitWriter command terminal asked]
  apply Invocation.status_of_fault
  rw [prepare_eq, closed]
  rfl

theorem ok_of_statusOf {result : Except Fault Unit} (done : statusOf result = 0) :
    result = .ok () := by
  cases result with
  | ok => rfl
  | error fault => exact (exitStatus_ne_zero fault done).elim

theorem join_lines (texts : List String) :
    String.join ((texts.map (Event.line .out)).map shownText) = joinLines texts := by
  rw [List.map_map]
  rfl

theorem join_course (order : OneShot) (unit : PowerUnit) (place : String)
    (found target after : Word) :
    ∃ more, String.join ((order.course unit place command found target after).map shownText) =
      joinLines (OneShot.heading place command found) ++ more := by
  unfold OneShot.course
  rw [List.map_cons, List.map_append, List.map_append, List.map_append, String.join_cons,
    String.join_append, String.join_append, join_lines]
  exact ⟨_, by rw [String.append_assoc]; rfl⟩

/-- The first access ends a run whose register memory lacks. -/
theorem carriedOut_of_lacks (lacks : window.lacks host (options.place layout) = true) :
    (options.carriedOut host layout command terminal window).1 = .error .noPage ∧
      (options.carriedOut host layout command terminal window).2.world.2 = host := by
  unfold carriedOut
  rw [lacks, Attempt.discard_eq_bind]
  exact ⟨rfl, rfl⟩

theorem carriedOut_of_reaches (reaches : window.lacks host (options.place layout) = false) :
    options.carriedOut host layout command terminal window =
      (discard (options.order.run (options.unit host layout).1
          (window.limitPlace (options.place layout)) command)).run
        (Terminal.operator.at (window.station (options.place layout) (.ofLayout layout)))
        { world := (terminal, host) } := by
  unfold carriedOut
  rw [reaches, Station.ending_false]

/-- What a run with status 0 did. -/
theorem of_done (parsed : parse arguments = some options)
    (done : (Tool.limitWriter.run arguments host layout command terminal).status = 0) :
    ∃ window target more, openWindow host layout .readWrite = .ok window ∧
      window.contains (options.place layout) = true ∧
      window.lacks host (options.place layout) = false ∧
      options.order.target (window.register host (options.place layout))
        (options.unit host layout).1 = .ok target ∧
      (Tool.limitWriter.run arguments host layout command terminal).host =
        window.stored host (options.place layout) target ∧
      (Tool.limitWriter.run arguments host layout command terminal).out =
        joinLines (OneShot.heading (window.limitPlace (options.place layout)) command
          (window.register host (options.place layout))) ++ more := by
  cases opened : openWindow host layout .readWrite with
  | error fault =>
    rw [run_closed command terminal parsed opened] at done
    exact (exitStatus_ne_zero fault done).elim
  | ok window =>
    obtain ⟨_, _, writable⟩ := openWindow_eq_ok opened
    obtain ⟨err, warnings, ran⟩ := run_opened command terminal parsed opened
    rw [ran] at done ⊢
    have finished := ok_of_statusOf done
    have reaches : window.lacks host (options.place layout) = false := by
      cases lacks : window.lacks host (options.place layout) with
      | false => rfl
      | true => cases (carriedOut_of_lacks command terminal lacks).1.symm.trans finished
    rw [carriedOut_of_reaches command terminal reaches] at finished ⊢
    obtain ⟨events, trace, history, replays⟩ := Attempt.succeeds_of_run (Prod.ext finished rfl)
    obtain ⟨after, trace⟩ := Attempt.succeeds_discard.1 trace
    obtain ⟨found, target, aimed, rfl⟩ := OneShot.run_succeeds.1 trace
    obtain ⟨inside, rfl, rfl, left⟩ := (OneShot.course_replays writable).1 replays
    obtain ⟨more, shown⟩ := join_course command options.order (options.unit host layout).1
      (window.limitPlace (options.place layout)) (window.register host (options.place layout))
      target (window.register (window.stored host (options.place layout) target)
        (options.place layout))
    refine ⟨window, target, more, rfl, inside, reaches, aimed, congrArg Prod.snd left, ?_⟩
    dsimp only
    rw [history]
    exact shown

/-- A run whose order can be carried out has status 0. -/
theorem done_of {target : Word} (parsed : parse arguments = some options)
    (opened : openWindow host layout .readWrite = .ok window)
    (inside : window.contains (options.place layout) = true)
    (reaches : window.lacks host (options.place layout) = false)
    (aimed : options.order.target (window.register host (options.place layout))
      (options.unit host layout).1 = .ok target) :
    (Tool.limitWriter.run arguments host layout command terminal).status = 0 ∧
      (Tool.limitWriter.run arguments host layout command terminal).host =
        window.stored host (options.place layout) target := by
  obtain ⟨_, _, writable⟩ := openWindow_eq_ok opened
  obtain ⟨err, warnings, ran⟩ := run_opened command terminal parsed opened
  have trace : (discard (options.order.run (options.unit host layout).1
      (window.limitPlace (options.place layout)) command)).Succeeds
      (options.order.course (options.unit host layout).1 (window.limitPlace (options.place layout))
        command (window.register host (options.place layout)) target
        (window.register (window.stored host (options.place layout) target) (options.place layout)))
      () :=
    Attempt.succeeds_discard.2 ⟨_, OneShot.run_succeeds.2 ⟨_, target, aimed, rfl⟩⟩
  obtain ⟨after, finished, _, left⟩ := Attempt.run_of_succeeds (Run.unlimited_start (terminal, host)) trace
    ((OneShot.course_replays writable).2 ⟨inside, rfl, rfl, rfl⟩)
  have ended : options.carriedOut host layout command terminal window = (.ok (), after) :=
    (carriedOut_of_reaches command terminal reaches).trans finished
  rw [ran, ended]
  exact ⟨rfl, congrArg Prod.snd left⟩

/-- A run whose register memory lacks is ended, and leaves the host as it was. -/
theorem ended_of_lacks (parsed : parse arguments = some options)
    (opened : openWindow host layout .readWrite = .ok window)
    (lacks : window.lacks host (options.place layout) = true) :
    (Tool.limitWriter.run arguments host layout command terminal).status =
        Fault.busErrorStatus ∧
      (Tool.limitWriter.run arguments host layout command terminal).host = host := by
  obtain ⟨err, warnings, ran⟩ := run_opened command terminal parsed opened
  rw [ran]
  obtain ⟨ended, left⟩ := carriedOut_of_lacks command terminal lacks
  dsimp only
  rw [ended, left]
  exact ⟨rfl, rfl⟩

/-! ## Restoring -/

theorem ofEnvironment_window (root : Option String) :
    (Layout.ofEnvironment root).limitOffset = PackageRegister.powerLimit.offset ∧
      (Layout.ofEnvironment root).windowSize = windowSize := by
  unfold Layout.ofEnvironment
  split <;> exact ⟨rfl, rfl⟩

theorem contains_customary {root : Option String} (sized : window.size =
    (Layout.ofEnvironment root).windowSize) :
    window.contains (Layout.ofEnvironment root).limitOffset = true := by
  obtain ⟨offset, size⟩ := ofEnvironment_window root
  unfold Window.contains
  rw [sized, offset, size]
  decide

theorem aligned_customary (root : Option String) :
    (Layout.ofEnvironment root).limitOffset % 8 = 0 := by
  rw [(ofEnvironment_window root).1]
  rfl

theorem aligned_place (parsed : parse arguments = some options) (root : Option String) :
    options.place (.ofEnvironment root) % 8 = 0 := by
  unfold place
  cases placed : options.offset with
  | none => exact aligned_customary root
  | some offset => exact aligned_of_parse parsed placed

/-- Two stores through a window, where the second puts back what the first found. -/
theorem stored_back_iff {offset other : Nat} (target : Word)
    (stands : host.handle? window.memory.names = some (.file window.memory))
    (aligned : offset % 8 = 0) (aligned' : other % 8 = 0) :
    SameFiles host (window.stored (window.stored host offset target) other
        (window.register host offset)) ↔
      offset = other ∨ SameFiles host (window.stored host offset target) ∧
        SameFiles (window.stored host offset target)
          (window.stored (window.stored host offset target) other
            (window.register host offset)) := by
  have once : (window.stored host offset target).contents window.memory =
      (host.contents window.memory).store (window.base.toNat + offset) target := by
    unfold Window.stored
    rw [Host.contents_update, if_pos rfl]
  have first : SameFiles host (window.stored host offset target) ↔ _ :=
    Host.sameFiles_update_iff stands
  have second : SameFiles (window.stored host offset target) (window.stored
      (window.stored host offset target) other (window.register host offset)) ↔ _ :=
    Host.sameFiles_update_iff stands
  have both : SameFiles host (window.stored (window.stored host offset target) other
      (window.register host offset)) ↔ _ := Host.sameFiles_update_update_iff stands
  rw [first, second, both, once]
  by_cases same : offset = other
  · subst same
    simp only [true_or, iff_true]
    exact Contents.store_undone _ _ _
  · simp only [same, false_or]
    exact Contents.stores_apart_iff (by omega)

theorem heading_eq (place : String) (found : Word) : OneShot.heading place command found =
    [s!"ORIG  [{place}] = {found.text}", "Restore command:",
      s!"  sudo {command} " ++ " ".intercalate (restoreArguments found)] := by
  have line : s!"  sudo {command} --restore {found.text}" =
      s!"  sudo {command} " ++ " ".intercalate (restoreArguments found) := by
    apply String.toList_injective
    simp [restoreArguments, String.toList_append]
    rfl
  unfold OneShot.heading
  rw [line]

/-- The restore command that a run prints succeeds where memory gets to the customary offset, and
else it is ended and changes nothing. It undoes the run exactly if the run was at the customary
offset, or else if neither of the two changes a file. -/
theorem restore_undoes_iff {root : Option String} {first : Outcome}
    (parsed : parse arguments = some options)
    (ran : Tool.limitWriter.run arguments host (.ofEnvironment root) command terminal = first)
    (done : first.status = 0) :
    ∃ (window : Window) (place : String) (found : Word) (more : String),
      openWindow host (.ofEnvironment root) .readWrite = .ok window ∧
      first.out = joinLines [s!"ORIG  [{place}] = {found.text}", "Restore command:",
        s!"  sudo {command} " ++ " ".intercalate (restoreArguments found)] ++ more ∧
      ∀ command terminal second,
        Tool.limitWriter.run (restoreArguments found) first.host (.ofEnvironment root) command
            terminal = second →
          (¬ window.Lacks host PackageRegister.powerLimit.offset → second.status = 0) ∧
            (window.Lacks host PackageRegister.powerLimit.offset →
              second.status = Fault.busErrorStatus ∧ second.host = first.host) ∧
            (SameFiles host second.host ↔
              options.offset.getD PackageRegister.powerLimit.offset =
                  PackageRegister.powerLimit.offset ∨
                SameFiles host first.host ∧ SameFiles first.host second.host) := by
  subst ran
  obtain ⟨window, target, more, opened, inside, reaches, _, left, out⟩ :=
    of_done command terminal parsed done
  obtain ⟨stands, sized, _⟩ := openWindow_eq_ok opened
  have named := Host.names_of_handle? stands
  rw [left, out, heading_eq]
  refine ⟨window, _, _, more, opened, rfl, ?_⟩
  rintro command terminal second rfl
  have again : openWindow (window.stored host (options.place (.ofEnvironment root)) target)
      (.ofEnvironment root) .readWrite = .ok window := (openWindow_update named _).trans opened
  have customary : options.offset.getD PackageRegister.powerLimit.offset =
      PackageRegister.powerLimit.offset ↔
      options.place (.ofEnvironment root) = (Layout.ofEnvironment root).limitOffset := by
    unfold place
    rw [(ofEnvironment_window root).1]
  rw [customary, ← (ofEnvironment_window root).1, ← Window.lacks_eq_false_iff, ← Window.lacks_iff]
  cases lacks : window.lacks host (Layout.ofEnvironment root).limitOffset with
  | true =>
    obtain ⟨ended, kept⟩ := ended_of_lacks command terminal (parse_restoreArguments _) again
      ((window.lacks_stored _).trans lacks)
    refine ⟨nofun, fun _ => ⟨ended, kept⟩, ?_⟩
    rw [kept]
    have elsewhere : options.place (.ofEnvironment root) ≠ (Layout.ofEnvironment root).limitOffset := by
      intro same
      rw [same, lacks] at reaches
      cases reaches
    simp [elsewhere, SameFiles]
  | false =>
    obtain ⟨restored, after⟩ := done_of command terminal (parse_restoreArguments _) again
      (contains_customary sized) ((window.lacks_stored _).trans lacks) rfl
    refine ⟨fun _ => restored, nofun, ?_⟩
    rw [after]
    have stood : host.handle? window.memory.names = some (.file window.memory) := by
      rw [named]
      exact stands
    exact stored_back_iff target stood (aligned_place parsed root) (aligned_customary root)

/-! ## A machine -/

/-- Names of the bridge's directory. -/
def bridgeNames : List String := ["sys", "bus", "pci", "devices", "0000:00:00.0"]

/-- A machine with a window at 2 MiB and no register file. Two registers of the window hold
limits. -/
def smallMachine : Host where
  entries := [(["dev", "mem"], .file 0), (bridgeNames ++ ["vendor"], .file 1),
    (bridgeNames ++ ["class"], .file 2), (bridgeNames ++ ["config"], .file 3)]
  files := [
    (⟨["dev", "mem"], 0⟩,
      ((Contents.zeros 0x400000).write 0x2059A0 0x00DF81B800420000#64).write 0x2059A8
        0x004284E800DF81B8#64),
    (⟨bridgeNames ++ ["vendor"], 1⟩, .ofText "0x8086\n"),
    (⟨bridgeNames ++ ["class"], 2⟩, .ofText "0x060000\n"),
    (⟨bridgeNames ++ ["config"], 3⟩, (Contents.zeros 256).write 0x48 0x200001#64)]
  made := 4

/-- A byte of the memory of a host. -/
def memoryByte (host : Host) (position : Nat) : Option UInt8 :=
  match host.find? ["dev", "mem"] with
  | some (.file contents) => some (contents.byte position)
  | _ => none

def hostRun (arguments : List String) (host : Host) : Outcome :=
  Tool.limitWriter.run arguments host (.ofEnvironment (some "host")) name ⟨[]⟩

/-- At the customary offset the restore command undoes the run. -/
theorem customary_run_is_undone :
    ∃ found : Word,
      (hostRun (restoreArguments found)
        (hostRun ["--set", "150", "170"] smallMachine).host).status = 0 ∧
      SameFiles smallMachine (hostRun (restoreArguments found)
        (hostRun ["--set", "150", "170"] smallMachine).host).host := by
  have asked : (parse ["--set", "150", "170"]).map LimitWriter.offset = some none := by
    decide +kernel
  have done : (hostRun ["--set", "150", "170"] smallMachine).status = 0 := by decide +kernel
  obtain ⟨options, parsed, customary⟩ := Option.map_eq_some_iff.1 asked
  obtain ⟨window, _, found, _, opened, _, restores⟩ := restore_undoes_iff name ⟨[]⟩ parsed rfl done
  obtain ⟨restored, _, undone⟩ := restores name ⟨[]⟩ _ rfl
  have reaches : ((openWindow smallMachine (.ofEnvironment (some "host")) .readWrite).map
      fun window => window.lacks smallMachine PackageRegister.powerLimit.offset).toOption =
        some false := by decide +kernel
  rw [opened] at reaches
  exact ⟨found, restored (Window.lacks_eq_false_iff.1 (Option.some.inj reaches)),
    undone.2 (.inl (by rw [customary]; rfl))⟩

/-- The arguments of a run elsewhere in the window. -/
def elsewhere : List String := ["--offset", "0x59A8", "--set", "150", "170"]

/-- At another offset it need not: the register set stays set, and another is overwritten. -/
theorem offset_run_is_not_undone :
    (hostRun elsewhere smallMachine).status = 0 ∧
      (hostRun elsewhere smallMachine).out = joinLines
        ["ORIG  [MCHBAR 0x200000+0x59A8] = 0x004284e800df81b8", "Restore command:",
          "  sudo mchbar-pl-write --restore 0x004284e800df81b8",
          "SET  PL1=150W (0x4B0)  PL2=170W (0x550) at 0.125 W/unit",
          "NEW  lo32=0x00df84b0 hi32=0x00428550",
          "AFTER [MCHBAR 0x200000+0x59A8] = 0x0042855000df84b0"] ∧
      (hostRun ["--restore", "0x004284e800df81b8"] (hostRun elsewhere smallMachine).host).status = 0 ∧
      ¬ SameFiles smallMachine
        (hostRun ["--restore", "0x004284e800df81b8"] (hostRun elsewhere smallMachine).host).host := by
  refine ⟨by decide +kernel, by decide +kernel, by decide +kernel, ?_⟩
  intro same
  have kept : memoryByte (hostRun ["--restore", "0x004284e800df81b8"]
      (hostRun elsewhere smallMachine).host).host 0x2059A8 = memoryByte smallMachine 0x2059A8 := by
    unfold memoryByte
    rw [same]
  exact absurd kept (by decide +kernel)

end LimitWriter
end PackagePower.CommandLine
