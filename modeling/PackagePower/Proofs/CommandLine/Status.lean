import PackagePower.Proofs.CommandLine.ShortMemory

/-!
# Exit status

A run that is not understood has a status of its own, and no run that is understood ends with it:
what the tools open, find, scan and write fails with faults of devices, and a session reports what
it meets and goes on until it exits. The one thing that no tool deals with is memory that ends
inside the window, which ends the process that gets there.
-/

namespace PackagePower

variable {host : Host} {layout : Layout}

theorem Attempt.EndsIn.discard {α : Type} {good : Fault → Prop} {attempt : Attempt α}
    (ends : attempt.EndsIn good) : (discard attempt).EndsIn good := by
  rw [Attempt.discard_eq_bind]
  exact ends.bind fun _ => .pure _

theorem Devices.openAll_ofDevice (host : Host) (layout : Layout) (base : Word) (access : Access) :
    FaultsIn Fault.OfDevice (openAll host layout base access) :=
  .bind (RegisterFile.openFor_ofDevice host layout access) fun _ =>
    .bind (Window.map_ofDevice host layout base access) fun _ => .ok _

/-! ## Programs -/

theorem OneShot.run_ofDevice (order : OneShot) (unit : PowerUnit) (place command : String) :
    (order.run unit place command).EndsIn Fault.OfDevice := by
  refine .bind (.read .mmio) fun found => .bind (.lift _) fun _ => .bind (.lift _) fun _ =>
    .bind (.lift _) fun _ => .bind (.ofExcept (.inRange _)) fun target => .bind (.lift _) fun _ =>
    .bind (.write .mmio target) fun _ => .bind (.read .mmio) fun after =>
    .bind (.lift _) fun _ => ?_
  dsimp only
  split
  · exact .bind (.lift _) fun _ => .pure _
  · exact .pure _

theorem Window.scan_ofDevice (window : Window) (host : Host) (target : ScanTarget)
    (mode : MatchMode) : FaultsIn Fault.OfDevice (window.scan host target mode) := by
  rw [window.scan_eq]
  exact .ok _

theorem Window.load_ofDevice {window : Window} {offset : Nat} (reaches : ¬ window.Lacks host offset) :
    FaultsIn Fault.OfDevice (window.load host offset) := by
  rw [load_of_reaches (lacks_eq_false_iff.2 reaches)]
  exact window.read_ofDevice host offset

theorem Window.dump_ofDevice {window : Window}
    (reaches : ∀ register : PackageRegister, ¬ window.Lacks host register.offset)
    (unit : Option PowerUnit) : (window.dump host unit).EndsIn Fault.OfDevice := by
  refine .bind (.lift _) fun _ => .forM (fun register => ?_) _
  exact .bind (.ofExcept (load_ofDevice (reaches register))) fun _ => .lift _

namespace CommandLine

theorem hardwareUnit_ofDevice (host : Host) (layout : Layout) :
    FaultsIn Fault.OfDevice (hardwareUnit host layout) :=
  .bind (RegisterFile.openFor_ofDevice host layout .readOnly) fun file =>
    file.powerUnit_ofDevice host

theorem openWindow_ofDevice (host : Host) (layout : Layout) (access : Access) :
    FaultsIn Fault.OfDevice (openWindow host layout access) :=
  .bind (discover_ofDevice host layout) fun _ => Window.map_ofDevice host layout _ access

/-! ## Plans -/

def Prepared.result (prepared : Prepared) (host : Host) (terminal : Terminal) : Except Fault Unit :=
  ((prepared.plan.program terminal.lineCount).run (Terminal.operator.at prepared.station)
    { world := (terminal, host) }).1

/-- A preparation or a plan fails with a fault of a device or not at all, or the plan is `killed`. -/
def Judged (killed : Prop) (host : Host) (terminal : Terminal) : Except Fault Prepared → Prop
  | .error fault => ¬ killed ∧ fault.OfDevice
  | .ok prepared => killed ∧ prepared.result host terminal = .error .noPage ∨
      ¬ killed ∧ FaultsIn Fault.OfDevice (prepared.result host terminal)

variable {terminal : Terminal} {killed : Prop}

theorem Judged.bind {α : Type} {result : Except Fault α} {f : α → Except Fault Prepared}
    (first : FaultsIn Fault.OfDevice result) (needed : killed → ∃ value, result = .ok value)
    (second : ∀ value, result = .ok value → Judged killed host terminal (f value)) :
    Judged killed host terminal (result >>= f) := by
  cases result with
  | ok value => exact second value rfl
  | error fault =>
    refine ⟨fun killed => ?_, first fault rfl⟩
    obtain ⟨_, impossible⟩ := needed killed
    cases impossible

/-- A plan over devices that are all there. -/
theorem Judged.plan {station : Station Host} {program : Attempt Unit}
    (replies : station.RepliesIn Fault.OfDevice)
    (ended : killed → (program.run (Terminal.operator.at station)
      { world := (terminal, host) }).1 = .error .noPage)
    (ends : ¬ killed → program.EndsIn Fault.OfDevice) :
    Judged killed host terminal (.ok { station, plan := .single program }) := by
  by_cases lost : killed
  · exact .inl ⟨lost, ended lost⟩
  · exact .inr ⟨lost, (ends lost).run replies (Run.unlimited_start (terminal, host))⟩

/-- The layout of a session, whose arguments may move the limit. -/
abbrev LimitPanel.moved (options : LimitPanel) (layout : Layout) : Layout :=
  { layout with limitOffset := options.offset.getD layout.limitOffset }

/-- The devices of a session are open and the units are read. -/
def LimitPanel.Opens (options : LimitPanel) (host : Host) (layout : Layout) (devices : Devices)
    (unit : PowerUnit) : Prop :=
  ∃ published, discover host (options.moved layout) = .ok published ∧
    Devices.openAll host (options.moved layout) published.address .readWrite = .ok devices ∧
    devices.file.powerUnit host = .ok unit

/-- The run of a tool gets to a page of the window that memory does not have. -/
def Invocation.Killed (invocation : Invocation) (host : Host) (layout : Layout)
    (terminal : Terminal) : Prop :=
  match invocation with
  | .limitWriter options =>
    ∃ window, openWindow host layout .readWrite = .ok window ∧
      window.Lacks host (options.offset.getD layout.limitOffset)
  | .windowScanner options =>
    ∃ unit aim window, options.unit host layout = .ok unit ∧ options.target unit = .ok aim ∧
      openWindow host layout .readOnly = .ok window ∧
      ∃ offset, offset % 8 = 0 ∧ window.Lacks host offset
  | .windowReader options =>
    ∃ unit window, options.unit host layout = .ok unit ∧
      openWindow host layout .readOnly = .ok window ∧
      ∃ register : PackageRegister, window.Lacks host register.offset
  | .limitPanel options =>
    ∃ devices unit, options.Opens host layout devices unit ∧
      devices.window.Lacks host (options.offset.getD layout.limitOffset) ∧
      ∃ event ∈ (LimitPanel.session devices unit host
          (options.offset.getD layout.limitOffset) terminal).2.history,
        event.OnWindowCopy

variable (command : String)

theorem LimitWriter.judged (options : LimitWriter) :
    Judged ((Invocation.limitWriter options).Killed host layout terminal) host terminal
      ((Invocation.limitWriter options).prepare host layout command).2 := by
  rw [prepare_eq]
  cases opened : openWindow host layout .readWrite with
  | error fault =>
    refine ⟨?_, openWindow_ofDevice host layout .readWrite fault opened⟩
    rintro ⟨_, opened', _⟩
    cases opened.symm.trans opened'
  | ok window =>
    have killed : (Invocation.limitWriter options).Killed host layout terminal ↔
        window.Lacks host (options.place layout) := by
      constructor
      · rintro ⟨_, opened', lacks⟩
        cases opened.symm.trans opened'
        exact lacks
      · exact fun lacks => ⟨window, opened, lacks⟩
    cases lacks : window.lacks host (options.place layout) with
    | true =>
      exact .inl ⟨killed.2 (Window.lacks_iff.1 lacks), (carriedOut_of_lacks command terminal lacks).1⟩
    | false =>
      refine .inr ⟨fun lost => Window.lacks_eq_false_iff.1 lacks (killed.1 lost), ?_⟩
      change FaultsIn _ (options.carriedOut host layout command terminal window).1
      rw [carriedOut_of_reaches command terminal lacks]
      exact (options.order.run_ofDevice _ _ command).discard.run (window.station_ofDevice _ _)
        (Run.unlimited_start (terminal, host))

theorem WindowScanner.unit_ofDevice (options : WindowScanner) (host : Host) (layout : Layout) :
    FaultsIn Fault.OfDevice (options.unit host layout) := by
  unfold unit
  split
  · exact .ok _
  · exact hardwareUnit_ofDevice host layout

theorem WindowScanner.target_ofDevice (options : WindowScanner) (unit : PowerUnit) :
    FaultsIn Fault.OfDevice (options.target unit) := by
  unfold target
  split
  · exact .bind (.inRange _) fun _ => .ok _
  · exact .bind (.inRange _) fun _ => .ok _

theorem WindowScanner.judged (options : WindowScanner) :
    Judged ((Invocation.windowScanner options).Killed host layout terminal) host terminal
      (options.prepare host layout) := by
  refine .bind (options.unit_ofDevice host layout) ?_ fun unit known =>
    .bind (options.target_ofDevice unit) ?_ fun aim aimed =>
    .bind (openWindow_ofDevice host layout .readOnly) ?_ fun window opened =>
    .plan (window.station_ofDevice _ _) ?_ ?_
  · rintro ⟨unit, _, _, known, _⟩
    exact ⟨unit, known⟩
  · rintro ⟨_, aim, _, known', aimed, _⟩
    cases known.symm.trans known'
    exact ⟨aim, aimed⟩
  · rintro ⟨_, _, window, _, _, opened, _⟩
    exact ⟨window, opened⟩
  · rintro ⟨_, _, _, _, _, opened', offset, slot, lacks⟩
    cases opened.symm.trans opened'
    rw [Window.survey_of_lacks slot lacks]
    exact ((Attempt.comesTo_say _ _ _).bind (Attempt.comesTo_ofExcept _ _ _).bind_error).run
      (Run.unlimited_start (terminal, host))
  · intro lives
    have reaches (offset : Nat) (slot : offset % 8 = 0) : ¬ window.Lacks host offset :=
      fun lacks => lives ⟨unit, aim, window, known, aimed, opened, offset, slot, lacks⟩
    rw [Window.survey_of_reaches reaches]
    exact .bind (.lift _) fun _ => .bind (.ofExcept (window.scan_ofDevice host _ _)) fun _ =>
      .print (.pure ())

theorem WindowReader.unit_ofDevice (options : WindowReader) (host : Host) (layout : Layout) :
    FaultsIn Fault.OfDevice (options.unit host layout) := by
  unfold unit
  split
  · rw [map_eq_pure_bind]
    exact (hardwareUnit_ofDevice host layout).bind fun _ => .ok _
  · exact .ok _

theorem WindowReader.judged (options : WindowReader) :
    Judged ((Invocation.windowReader options).Killed host layout terminal) host terminal
      (options.prepare host layout) := by
  refine .bind (options.unit_ofDevice host layout) ?_ fun unit known =>
    .bind (openWindow_ofDevice host layout .readOnly) ?_ fun window opened =>
    .plan (window.station_ofDevice _ _) ?_ ?_
  · rintro ⟨unit, _, known, _⟩
    exact ⟨unit, known⟩
  · rintro ⟨_, window, _, opened, _⟩
    exact ⟨window, opened⟩
  · rintro ⟨_, _, _, opened', register, lacks⟩
    cases opened.symm.trans opened'
    obtain ⟨lines, comes⟩ := window.dump_comesTo host
      (Terminal.operator.at (window.station layout.limitOffset (.ofLayout layout)))
      (terminal, host) unit
    rw [Window.readThrough_of_lacks PackageRegister.ascending_all register.mem_all lacks] at comes
    exact comes.run (Run.unlimited_start (terminal, host))
  · intro lives
    exact Window.dump_ofDevice
      (fun register lacks => lives ⟨unit, window, known, opened, register, lacks⟩) unit

theorem LimitPanel.judged (options : LimitPanel) :
    Judged ((Invocation.limitPanel options).Killed host layout terminal) host terminal
      (options.prepare host layout) := by
  refine .bind (discover_ofDevice host _) ?_ fun published found =>
    .bind (Devices.openAll_ofDevice host _ _ .readWrite) ?_ fun devices opened =>
    .bind (devices.file.powerUnit_ofDevice host) ?_ fun unit read => ?_
  · rintro ⟨_, _, ⟨published, found, _⟩, _⟩
    exact ⟨published, found⟩
  · rintro ⟨devices, _, ⟨_, found', opened, _⟩, _⟩
    cases found.symm.trans found'
    exact ⟨devices, opened⟩
  · rintro ⟨_, unit, ⟨_, found', opened', read⟩, _⟩
    cases found.symm.trans found'
    cases opened.symm.trans opened'
    exact ⟨unit, read⟩
  · have result : Prepared.result ⟨devices.station.ending (devices.window.lacks host
          (options.offset.getD layout.limitOffset)),
          .session (opening devices unit) (panel devices unit)⟩ host terminal =
        (session devices unit host (options.offset.getD layout.limitOffset) terminal).1.map
          fun _ => () :=
      congrArg Prod.fst (run_eq_session host _ terminal devices unit)
    rcases session_ends devices unit host (options.offset.getD layout.limitOffset) terminal with
      ⟨exits, lives⟩ | ⟨killed, lost⟩
    · refine .inr ⟨?_, ?_⟩
      · rintro ⟨_, _, ⟨_, found', opened', read'⟩, lost⟩
        cases found.symm.trans found'
        cases opened.symm.trans opened'
        cases read.symm.trans read'
        exact lives lost
      · rw [result, exits]
        exact .ok ()
    · refine .inl ⟨⟨devices, unit, ⟨published, found, opened, read⟩, lost⟩, ?_⟩
      rw [result, killed]
      rfl

theorem Invocation.judged (invocation : Invocation) :
    Judged (invocation.Killed host layout terminal) host terminal
      (invocation.prepare host layout command).2 := by
  cases invocation with
  | limitWriter options => exact options.judged command
  | windowScanner options => exact options.judged
  | windowReader options => exact options.judged
  | limitPanel options => exact options.judged

/-! ## Runs -/

section
variable (tool : Tool) (terminal : Terminal) {invocation : Invocation}

theorem LimitPanel.prepare_of_opens {options : LimitPanel} {devices : Devices} {unit : PowerUnit}
    (opens : options.Opens host layout devices unit) :
    options.prepare host layout = .ok
      { station := devices.station.ending (devices.window.lacks host
          (options.offset.getD layout.limitOffset))
        plan := .session (opening devices unit) (panel devices unit) } := by
  obtain ⟨published, found, opened, read⟩ := opens
  unfold prepare
  dsimp only
  rw [found]
  change (Devices.openAll _ _ _ _ >>= _) = _
  rw [opened]
  change (devices.file.powerUnit host >>= _) = _
  rw [read]
  rfl

theorem LimitPanel.run_opened {options : LimitPanel} {devices : Devices} {unit : PowerUnit}
    (opens : options.Opens host layout devices unit) :
    let outcome := (Invocation.limitPanel options).run tool host layout command terminal
    let session := session devices unit host (options.offset.getD layout.limitOffset) terminal
    outcome.status = statusOf (session.1.map fun _ => ()) ∧
      outcome.out = String.join (session.2.history.map shownText) ∧
      outcome.host = session.2.world.2 := by
  intro outcome session
  have ran := run_eq_session host (options.offset.getD layout.limitOffset) terminal devices unit
  unfold handler at ran
  have prepared : (Invocation.limitPanel options).prepare host layout command = ([], _) :=
    congrArg (Prod.mk []) (prepare_of_opens opens)
  unfold outcome Invocation.run
  rw [prepared]
  dsimp only
  rw [ran]
  exact ⟨rfl, rfl, rfl⟩

/-- A session runs to its exit, unless it gets to a page that memory does not have. -/
theorem LimitPanel.run_ends {options : LimitPanel} {devices : Devices} {unit : PowerUnit}
    (opens : options.Opens host layout devices unit) :
    let outcome := (Invocation.limitPanel options).run tool host layout command terminal
    let session := session devices unit host (options.offset.getD layout.limitOffset) terminal
    outcome.out = String.join (session.2.history.map shownText) ∧
      outcome.host = session.2.world.2 ∧
      (outcome.status = 0 ∧ session.1 = .ok .exit ∨
        outcome.status = Fault.busErrorStatus ∧
          devices.window.Lacks host (options.offset.getD layout.limitOffset) ∧
          ∃ event ∈ session.2.history, event.OnWindowCopy) := by
  intro outcome session
  obtain ⟨status, out, left⟩ := run_opened command tool terminal opens
  refine ⟨out, left, ?_⟩
  rcases session_ends devices unit host (options.offset.getD layout.limitOffset) terminal with
    ⟨exits, _⟩ | ⟨killed, lost⟩
  · rw [exits] at status
    exact .inl ⟨status, exits⟩
  · rw [killed] at status
    exact .inr ⟨status, lost⟩

end

/-- A machine like the small one, with nothing in its memory. -/
def emptyMachine : Host :=
  LimitWriter.smallMachine.update ⟨["dev", "mem"], 0⟩ fun _ => Contents.zeros 0

def listing : Outcome :=
  Tool.windowReader.run [] emptyMachine (.ofEnvironment (some "host")) "mchbar-read" ⟨[]⟩

end CommandLine
end PackagePower
