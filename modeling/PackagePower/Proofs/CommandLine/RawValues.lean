import PackagePower.Proofs.CommandLine.Reach
import PackagePower.Proofs.Device.SameWindow
import PackagePower.Proofs.Program.Simulation

/-!
# Runs on raw values

A word to restore and counts to look for are what registers hold, and a listing that is not
decoded shows no more than that. Such runs need no units. The limit writer does not ask for them,
and though the scanner does, its target does not take them in. So these runs are the same on
hosts with the same window, whatever their register files and power zones hold.
-/

namespace PackagePower.CommandLine

/-! ## Arguments -/

/-- The arguments, where they are options of the tool, ask for raw values. -/
def Tool.takesRaw (tool : Tool) (arguments : List String) : Bool :=
  match tool with
  | .limitWriter =>
    (CommandLine.parse LimitWriter.specs arguments).all fun given => isGiven given .restore
  | .windowScanner =>
    (CommandLine.parse WindowScanner.specs arguments).all fun given => isGiven given .units
  | .windowReader =>
    (CommandLine.parse WindowReader.specs arguments).all fun given => !isGiven given .decode
  | .limitPanel => false

/-- A value to restore is the whole order. -/
theorem LimitWriter.restores_of_given {arguments : List String} {given : List (Given Id)}
    {options : LimitWriter} (read : CommandLine.parse specs arguments = some given)
    (asked : isGiven given .restore = true) (parsed : parse arguments = some options) :
    ∃ value, options.order = .restore value := by
  obtain ⟨other, beside, understood⟩ := parse_eq_some_iff.1 parsed
  obtain ⟨written, _⟩ := (CommandLine.parse_eq_some_iff unambiguous).1 read
  obtain rfl := written.unique unambiguous beside
  have orders := understood.order
  generalize options.order = order at orders ⊢
  cases orders with
  | set _ alone =>
    rw [alone] at asked
    cases asked
  | restore => exact ⟨_, rfl⟩

theorem WindowScanner.counts_of_given {arguments : List String} {given : List (Given Id)}
    {options : WindowScanner} (read : CommandLine.parse specs arguments = some given)
    (asked : isGiven given .units = true) (parsed : parse arguments = some options) :
    ∃ counts, options.units = some counts := by
  obtain ⟨other, beside, understood⟩ := parse_eq_some_iff.1 parsed
  obtain ⟨written, _⟩ := (CommandLine.parse_eq_some_iff unambiguous).1 read
  obtain rfl := written.unique unambiguous beside
  have seeks := understood.seeks
  generalize options.units = units, options.first = first, options.second = second at seeks ⊢
  cases seeks with
  | counts => exact ⟨_, rfl⟩
  | watts alone =>
    rw [alone] at asked
    cases asked

theorem WindowReader.decode_of_given {arguments : List String} {given : List (Given Id)}
    {options : WindowReader} (read : CommandLine.parse specs arguments = some given)
    (parsed : parse arguments = some options) : options.decode = isGiven given .decode := by
  obtain ⟨given', read', last⟩ := Option.bind_eq_some_iff.1 parsed
  cases read.symm.trans read'
  cases last
  rfl

/-! ## Plans -/

section
variable {host other : Host} {layout : Layout}

/-- One program on the window alone, over windows that are alike. -/
def Prepared.Alike (layout : Layout) (host other : Host) (prepared beside : Prepared) : Prop :=
  ∃ window window' offset zone lacks program,
    Window.Alike layout window window' host other ∧ Attempt.Only OnWindow program ∧
      prepared = ⟨(window.station offset zone).ending lacks, .single program⟩ ∧
      beside = ⟨(window'.station offset zone).ending lacks, .single program⟩

/-- Preparing fails for the same reason, or comes to plans that are alike. -/
def PreparesAlike (layout : Layout) (host other : Host) (result beside : Except Fault Prepared) :
    Prop :=
  (∃ fault, result = .error fault ∧ beside = .error fault) ∨
    ∃ prepared prepared', result = .ok prepared ∧ beside = .ok prepared' ∧
      prepared.Alike layout host other prepared'

/-- What is planned once the window is open, where the program reads no more than the window. -/
theorem preparesAlike_of_window (same : host.SameWindow other layout) (access : Access)
    (offset : Nat) (zone : Zone) (lacks : Window → Host → Bool)
    (program : Window → Host → Attempt Unit)
    (alike : ∀ window beside, Window.Alike layout window beside host other →
      lacks beside other = lacks window host ∧ program beside other = program window host)
    (only : ∀ window, (program window host).Only OnWindow) :
    PreparesAlike layout host other
      ((openWindow host layout access).map fun window =>
        ⟨(window.station offset zone).ending (lacks window host), .single (program window host)⟩)
      ((openWindow other layout access).map fun window =>
        ⟨(window.station offset zone).ending (lacks window other),
          .single (program window other)⟩) := by
  rcases openWindow_cases same access with
    ⟨fault, failed, failed'⟩ | ⟨window, beside, opened, opened', windows⟩
  · rw [failed, failed']
    exact .inl ⟨fault, rfl, rfl⟩
  · rw [opened, opened']
    obtain ⟨ending, programs⟩ := alike window beside windows
    refine .inr ⟨_, _, rfl, rfl, ⟨window, beside, offset, zone, _, _, windows, only window, rfl, ?_⟩⟩
    dsimp only
    rw [ending, programs]

/-- A value restored as a whole asks for no units. -/
theorem LimitWriter.unit_of_restore {options : LimitWriter} {value : Word}
    (restores : options.order = .restore value) (host : Host) (layout : Layout) :
    options.unit host layout = (.eighthWatt, []) := by
  unfold LimitWriter.unit
  rw [restores]

theorem LimitWriter.warnings_of_restore {options : LimitWriter} {value : Word}
    (restores : options.order = .restore value) (host : Host) (command : String) :
    ((Invocation.limitWriter options).prepare host layout command).1 = [] :=
  congrArg Prod.snd (unit_of_restore restores host _)

theorem LimitWriter.prepares_alike (same : host.SameWindow other layout) {options : LimitWriter}
    {value : Word} (restores : options.order = .restore value) (command : String) :
    PreparesAlike layout host other
      ((Invocation.limitWriter options).prepare host layout command).2
      ((Invocation.limitWriter options).prepare other layout command).2 := by
  rw [prepare_eq, prepare_eq, unit_of_restore restores, unit_of_restore restores]
  apply preparesAlike_of_window same .readWrite (options.place layout) (.ofLayout layout)
    (fun window host => window.lacks host (options.place layout))
    fun window _ => discard (options.order.run .eighthWatt
      (window.limitPlace (options.place layout)) command)
  · intro window beside alike
    rw [alike.limitPlace_eq]
    exact ⟨alike.lacks_eq _, rfl⟩
  · intro window
    rw [Attempt.discard_eq_bind]
    exact .bind (run_onWindow _ _ _ _) fun _ => .pure _

/-- What a scan says and looks for in an open window. -/
def WindowScanner.looking (options : WindowScanner) (aim : ScanTarget × String) (window : Window)
    (host : Host) : Attempt Unit := do
  Program.say (heading window aim.2 options.mode)
  let found ← Attempt.ofExcept (window.survey host aim.1 options.mode)
  Program.print .out (joinLines (resultLines found)) [] (.done (.ok ()))

/-- Counts are looked for whatever the units are, also where these cannot be read. -/
theorem WindowScanner.prepare_of_counts {options : WindowScanner} {counts : List Nat}
    (given : options.units = some counts) (host : Host) (layout : Layout) :
    options.prepare host layout = options.target .eighthWatt >>= fun aim =>
      (openWindow host layout .readOnly).map fun window =>
        ⟨(window.station layout.limitOffset (.ofLayout layout)).ending false,
          .single (options.looking aim window host)⟩ := by
  have aims (unit : PowerUnit) : options.target unit = options.target .eighthWatt := by
    unfold target
    rw [given]
  have units : ∃ unit, options.unit host layout = .ok unit := by
    unfold unit
    rw [given]
    cases hardwareUnit host layout with
    | error fault => exact ⟨_, rfl⟩
    | ok unit => exact ⟨unit, rfl⟩
  obtain ⟨unit, known⟩ := units
  unfold prepare
  rw [known]
  change options.target unit >>= _ = _
  simp only [aims, Station.ending_false]
  rfl

theorem WindowScanner.prepares_alike (same : host.SameWindow other layout)
    {options : WindowScanner} {counts : List Nat} (given : options.units = some counts) :
    PreparesAlike layout host other (options.prepare host layout)
      (options.prepare other layout) := by
  rw [prepare_of_counts given, prepare_of_counts given]
  cases options.target .eighthWatt with
  | error fault => exact .inl ⟨fault, rfl, rfl⟩
  | ok aim =>
    apply preparesAlike_of_window same .readOnly layout.limitOffset (.ofLayout layout)
      (fun _ _ => false) (options.looking aim)
    · intro window beside alike
      unfold looking heading
      rw [alike.survey_eq, alike.base]
      exact ⟨rfl, rfl⟩
    · intro window
      exact .bind (.lift (.say _)) fun _ => .bind (.ofExcept _) fun _ => .print nofun (.done _)

theorem WindowReader.prepares_alike (same : host.SameWindow other layout)
    {options : WindowReader} (plain : options.decode = false) :
    PreparesAlike layout host other (options.prepare host layout)
      (options.prepare other layout) := by
  have planned (host : Host) : options.prepare host layout =
      (openWindow host layout .readOnly).map fun window =>
        ⟨(window.station layout.limitOffset (.ofLayout layout)).ending false,
          .single (window.dump host none)⟩ := by
    unfold prepare unit
    simp only [plain, Station.ending_false]
    cases openWindow host layout .readOnly <;> rfl
  rw [planned, planned]
  apply preparesAlike_of_window same .readOnly layout.limitOffset (.ofLayout layout)
    (fun _ _ => false) fun window host => window.dump host none
  · intro window beside alike
    exact ⟨rfl, alike.dump_eq none⟩
  · intro window
    refine .bind (.lift (.say _)) fun _ => .forM (fun register => ?_) _
    exact .bind (.ofExcept _) fun _ => .lift (.say _)

/-! ## Runs -/

/-- What can be told of a run, and what it leaves in memory. -/
structure Outcome.Alike (layout : Layout) (outcome beside : Outcome) : Prop where
  status : beside.status = outcome.status
  out : beside.out = outcome.out
  err : beside.err = outcome.err
  warnings : beside.warnings = outcome.warnings
  memory : beside.host.find? layout.memory.names = outcome.host.find? layout.memory.names

theorem simulates_onWindow {ω : Type} (operator : Operator ω) (window beside : Window)
    (offset : Nat) (zone : Zone) (lacks : Bool) :
    (operator.at ((window.station offset zone).ending lacks)).SimulatesOn OnWindow
      (operator.at ((beside.station offset zone).ending lacks)) fun world world' =>
        world.1 = world'.1 ∧ Window.Alike layout window beside world.2 world'.2 := by
  intro action permitted world world' related
  obtain ⟨own, host⟩ := world
  obtain ⟨own', other⟩ := world'
  obtain ⟨rfl, alike⟩ := related
  cases action with
  | ask | decide | readZone | writeZone => exact permitted.elim
  | warn text => exact ⟨rfl, rfl, alike⟩
  | read copy =>
    refine ⟨?_, rfl, alike⟩
    change (if lacks ∧ copy = .mmio then _ else window.read host offset) = _
    rw [← alike.read_eq]
    rfl
  | write copy value =>
    obtain ⟨reply, after⟩ := alike.write offset value
    refine ⟨?_, rfl, after⟩
    change (if lacks ∧ copy = .mmio then _ else (replied host (window.write host offset value)).1) =
      _
    rw [← reply]
    rfl

theorem Invocation.run_alike (tool : Tool) {invocation : Invocation} {command : String}
    (terminal : Terminal) (same : host.SameWindow other layout)
    (warnings : (invocation.prepare other layout command).1 =
      (invocation.prepare host layout command).1)
    (plans : PreparesAlike layout host other (invocation.prepare host layout command).2
      (invocation.prepare other layout command).2) :
    (invocation.run tool host layout command terminal).Alike layout
      (invocation.run tool other layout command terminal) := by
  unfold Invocation.run
  generalize invocation.prepare host layout command = prepared at warnings plans ⊢
  generalize invocation.prepare other layout command = prepared' at warnings plans ⊢
  obtain ⟨said, plan⟩ := prepared
  obtain ⟨said', plan'⟩ := prepared'
  obtain rfl : said' = said := warnings
  rcases plans with ⟨fault, rfl, rfl⟩ | ⟨_, _, rfl, rfl, alike⟩
  · exact ⟨rfl, rfl, rfl, rfl, same.memory.here⟩
  · obtain ⟨window, beside, offset, zone, lacks, program, windows, only, rfl, rfl⟩ := alike
    have like : Run.Like (fun world world' : Terminal × Host => world.1 = world'.1 ∧
        Window.Alike layout window beside world.2 world'.2)
        { world := (terminal, host) } { world := (terminal, other) } :=
      ⟨⟨rfl, windows⟩, rfl, rfl, rfl⟩
    obtain ⟨result, left⟩ :=
      only.run_like (simulates_onWindow Terminal.operator window beside offset zone lacks) like
    have history : (Run.history _) = Run.history _ := congrArg List.reverse left.events
    refine ⟨?_, ?_, ?_, ?_, left.world.2.found⟩
    · exact congrArg statusOf result.symm
    · exact congrArg (fun events => String.join (events.map shownText)) history.symm
    · exact congrArg₂ (fun events result =>
        String.join (events.map complaint) ++ endText tool result) history.symm result.symm
    · exact congrArg (fun events => said' ++ events.filterMap warning?) history.symm

end

/-- Runs on raw values are the same on hosts with the same window: they have the same status, print
and warn the same, and leave the same memory, whatever the register files and the power zones. -/
theorem raw_runs_agree (tool : Tool) (arguments : List String) {host other : Host}
    {layout : Layout} (raw : tool.takesRaw arguments = true)
    (same : host.SameWindow other layout) (command : String) (terminal : Terminal) :
    let outcome := tool.run arguments host layout command terminal
    let beside := tool.run arguments other layout command terminal
    beside.status = outcome.status ∧ beside.out = outcome.out ∧ beside.err = outcome.err ∧
      beside.warnings = outcome.warnings ∧
      beside.host.find? layout.memory.names = outcome.host.find? layout.memory.names := by
  intro outcome beside
  suffices alike : outcome.Alike layout beside from
    ⟨alike.status, alike.out, alike.err, alike.warnings, alike.memory⟩
  unfold outcome beside
  cases parsed : tool.parse arguments with
  | none =>
    unfold Tool.run
    rw [parsed]
    exact ⟨rfl, rfl, rfl, rfl, same.memory.here⟩
  | some invocation =>
    rw [Tool.run_of_parse tool command terminal parsed, Tool.run_of_parse tool command terminal parsed]
    cases tool with
    | limitPanel => cases raw
    | limitWriter =>
      obtain ⟨options, understood, rfl⟩ := Option.map_eq_some_iff.1 parsed
      obtain ⟨given, read, _⟩ := Option.bind_eq_some_iff.1 understood
      rw [Tool.takesRaw, read] at raw
      obtain ⟨value, restores⟩ := LimitWriter.restores_of_given read raw understood
      apply Invocation.run_alike .limitWriter terminal same
      · exact (LimitWriter.warnings_of_restore restores other command).trans
          (LimitWriter.warnings_of_restore restores host command).symm
      · exact LimitWriter.prepares_alike same restores command
    | windowScanner =>
      obtain ⟨options, understood, rfl⟩ := Option.map_eq_some_iff.1 parsed
      obtain ⟨given, read, _⟩ := Option.bind_eq_some_iff.1 understood
      rw [Tool.takesRaw, read] at raw
      obtain ⟨counts, known⟩ := WindowScanner.counts_of_given read raw understood
      exact Invocation.run_alike .windowScanner terminal same rfl
        (WindowScanner.prepares_alike same known)
    | windowReader =>
      obtain ⟨options, understood, rfl⟩ := Option.map_eq_some_iff.1 parsed
      obtain ⟨given, read, _⟩ := Option.bind_eq_some_iff.1 understood
      rw [Tool.takesRaw, read, Option.all_some, Bool.not_eq_true'] at raw
      have plain := (WindowReader.decode_of_given read understood).trans raw
      exact Invocation.run_alike .windowReader terminal same rfl
        (WindowReader.prepares_alike same plain)

/-- The small machine with units of its own, and with a power zone that has no number in it. -/
def fullMachine : Host :=
  (LimitWriter.smallMachine.put ["dev", "cpu", "0", "msr"]
      (.file ((Contents.zeros 0x1000).write PowerUnit.register 0xA0E0A#64))).put
    ["sys", "class", "powercap", "intel-rapl:0", "constraint_0_power_limit_uw"]
    (.file (.ofText "max"))

/-- Restoring runs through on a machine without a register file, and the same on one with other
units. -/
theorem machines_restore_alike :
    let run (host : Host) := Tool.limitWriter.run
      ["--fixed-scale", "--restore", "0x00DF80A000DC8140"] host { root := "host" }
      LimitWriter.name ⟨[]⟩
    (run LimitWriter.smallMachine).status = 0 ∧ (run fullMachine).status = 0 ∧
      (run fullMachine).out = (run LimitWriter.smallMachine).out := by
  intro run
  have same : LimitWriter.smallMachine.SameWindow fullMachine { root := "host" } :=
    .trans (.put _ (by decide) (by decide) (by decide)) (.put _ (by decide) (by decide) (by decide))
  have done : (run LimitWriter.smallMachine).status = 0 := by decide +kernel
  obtain ⟨status, out, _⟩ := raw_runs_agree .limitWriter
    ["--fixed-scale", "--restore", "0x00DF80A000DC8140"] (by decide +kernel) same
    LimitWriter.name ⟨[]⟩
  exact ⟨done, status.trans done, out⟩

end PackagePower.CommandLine
