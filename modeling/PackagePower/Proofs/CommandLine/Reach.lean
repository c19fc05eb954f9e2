import PackagePower.CommandLine.Invocation
import PackagePower.Proofs.CommandLine.Restore
import PackagePower.Proofs.Program.Attempt
import PackagePower.Proofs.Session.Reach

/-!
# What a run of a tool reaches

Looking through the window changes nothing. Setting or restoring reaches the window's copy of the
limit, and a session both copies and the power zone. Nothing else changes in any run, whatever
the arguments, the host and the input, so the units in use are never written to.
-/

namespace PackagePower.CommandLine

open Host (Within)

variable {host : Host} {layout : Layout} {command : String} {prepared : Prepared}

/-! ## Looking through the window -/

/-- The plan is one program that neither decides nor writes. -/
def Prepared.Quiet (prepared : Prepared) : Prop :=
  prepared.station.Steady ∧
    ∃ program, prepared.plan = .single program ∧ program.Only Action.Quiet

theorem WindowScanner.prepare_quiet {options : WindowScanner}
    (planned : options.prepare host layout = .ok prepared) : prepared.Quiet := by
  obtain ⟨unit, _, planned₁⟩ := bind_eq_ok planned
  obtain ⟨⟨target, description⟩, _, planned₂⟩ := bind_eq_ok planned₁
  obtain ⟨window, _, planned₃⟩ := bind_eq_ok planned₂
  cases planned₃
  refine ⟨window.station_steady _ _, _, rfl, ?_⟩
  refine .bind (.lift (.say _)) fun _ => .bind (.ofExcept _) fun found => ?_
  exact .print nofun (.done _)

theorem WindowReader.prepare_quiet {options : WindowReader}
    (planned : options.prepare host layout = .ok prepared) : prepared.Quiet := by
  obtain ⟨unit, _, planned₁⟩ := bind_eq_ok planned
  obtain ⟨window, _, planned₂⟩ := bind_eq_ok planned₁
  cases planned₂
  refine ⟨window.station_steady _ _, _, rfl, ?_⟩
  refine .bind (.lift (.say _)) fun _ => .forM (fun register => ?_) _
  exact .bind (.ofExcept _) fun _ => .lift (.say _)

/-! ## Setting or restoring -/

/-- The actions on the window's copy alone. -/
def OnWindow : Action → Prop
  | .read .mmio => True
  | .write .mmio _ => True
  | .warn _ => True
  | _ => False

theorem run_onWindow (order : OneShot) (unit : PowerUnit) (place command : String) :
    (order.run unit place command).Only OnWindow := by
  refine .bind (Program.Only.act trivial) fun found => .bind (.lift (.say _)) fun _ =>
    .bind (.lift (.say _)) fun _ => .bind (.lift (.say _)) fun _ =>
    .bind (.ofExcept _) fun target => .bind (.lift (.sayAll _)) fun _ => .bind (Program.Only.act trivial) fun _ =>
    .bind (Program.Only.act trivial) fun after => .bind (.lift (.say _)) fun _ => ?_
  dsimp only
  split
  · exact .bind (.lift (.act trivial)) fun _ => .pure _
  · exact .pure _

theorem answer_onWindow {reach : Reach} {window : Window} {offset : Nat} {zone : Zone}
    {lacks : Bool} {ω : Type} {operator : Operator ω}
    (member : (window.memory.names, window.base.toNat + offset) ∈ reach.registers)
    (action : Action) (permitted : OnWindow action) (world : ω × Host) :
    Within reach world.2
      ((operator.at ((window.station offset zone).ending lacks)).answer action world).2.2 := by
  rw [Station.world_ending]
  cases action with
  | ask | decide | readZone | writeZone => exact permitted.elim
  | warn | read => exact .refl reach _
  | write copy value => exact replied_within fun after wrote => window.write_within member wrote

/-! ## Places -/

/-- The register at `offset` in the window, where one is published. -/
def windowRegister (host : Host) (layout : Layout) (offset : Nat) : List (List String × Nat) :=
  match discover host layout with
  | .ok published => [(layout.memory.names, published.address.toNat + offset)]
  | .error _ => []

/-- Both files of the power zone. -/
def zoneFiles (layout : Layout) : List (List String) :=
  [((Zone.ofLayout layout).constraint .first).names,
    ((Zone.ofLayout layout).constraint .second).names]

theorem mem_windowRegister {access : Access} {window : Window} {offset : Nat}
    {published : PublishedWindow} (found : discover host layout = .ok published)
    (mapped : Window.map host layout published.address access = .ok window) :
    (window.memory.names, window.base.toNat + offset) ∈ windowRegister host layout offset := by
  have memory := Host.names_of_handle? (Window.map_eq_ok mapped).1
  unfold windowRegister
  rw [found, memory, Window.base_of_map mapped]
  exact List.mem_singleton.2 rfl

theorem registerFile_not_zoneFile (layout : Layout) :
    layout.registerFile.names ∉ zoneFiles layout := by
  simp [zoneFiles, Layout.registerFile, Layout.processors, Zone.constraint, Zone.ofLayout,
    Layout.zone, Path.child]

theorem memory_not_zoneFile (layout : Layout) : layout.memory.names ∉ zoneFiles layout := by
  simp [zoneFiles, Layout.memory, Zone.constraint, Zone.ofLayout, Layout.zone, Path.child]

theorem registerFile_ne_memory (layout : Layout) :
    layout.registerFile.names ≠ layout.memory.names := by
  simp [Layout.registerFile, Layout.processors, Layout.memory, Path.child]

/-- What a run may change. -/
def Invocation.reach (invocation : Invocation) (host : Host) (layout : Layout) : Reach :=
  match invocation with
  | .limitWriter options =>
    { registers := windowRegister host layout (options.offset.getD layout.limitOffset) }
  | .limitPanel options =>
    { registers := (layout.registerFile.names, PowerLimit.register) ::
        windowRegister host layout (options.offset.getD layout.limitOffset)
      texts := zoneFiles layout }
  | .windowScanner _ => {}
  | .windowReader _ => {}

/-! ## Sessions -/

theorem openAll_reaches {options : LimitPanel} {published : PublishedWindow} {devices : Devices}
    (found : discover host layout = .ok published)
    (opened : Devices.openAll host
      { layout with limitOffset := options.offset.getD layout.limitOffset }
      published.address .readWrite = .ok devices) :
    devices.Reaches ((Invocation.limitPanel options).reach host layout) := by
  obtain ⟨file, opened₁, rest⟩ := bind_eq_ok opened
  obtain ⟨window, mapped, same⟩ := bind_eq_ok rest
  cases same
  refine ⟨?_, ?_, ?_⟩
  · intro id handle
    have named := RegisterFile.names_of_openFor opened₁ handle
    rw [named]
    exact ⟨List.mem_cons_self, registerFile_not_zoneFile layout⟩
  · exact List.mem_cons_of_mem _ (mem_windowRegister found mapped)
  · intro index
    cases index with
    | first => exact List.mem_cons_self
    | second => exact List.mem_cons_of_mem _ List.mem_cons_self

theorem LimitPanel.prepare_ok {options : LimitPanel}
    (planned : options.prepare host layout = .ok prepared) :
    ∃ (devices : Devices) (lacks : Bool) (opening : Program Unit) (panel : Panel),
      prepared = { station := devices.station.ending lacks, plan := .session opening panel } ∧
      devices.Reaches ((Invocation.limitPanel options).reach host layout) ∧
      opening.Only Action.Quiet := by
  obtain ⟨published, found, planned₁⟩ := bind_eq_ok planned
  obtain ⟨devices, opened, planned₂⟩ := bind_eq_ok planned₁
  obtain ⟨unit, _, planned₃⟩ := bind_eq_ok planned₂
  cases planned₃
  exact ⟨devices, _, _, _, rfl, openAll_reaches found opened, .sayAll _⟩

/-- A session is its opening and the course of its steps. -/
theorem run_session {σ : Type} (handler : Handler σ) (opening : Program Unit) (panel : Panel)
    (lines : Nat) (start : Run σ) :
    ((Plan.session opening panel).program lines).run handler start =
      match opening.run handler start with
      | (none, after) => (.error .brokenStream, after)
      | (some (), middle) =>
        ((discard (Session.steps panel (Session.enoughSteps lines) .idle).mortal :
          Attempt Unit).run handler middle) := by
  have unfolded : ExceptT.run ((Plan.session opening panel).program lines) = opening >>= fun _ =>
      ExceptT.run (discard (Session.steps panel (Session.enoughSteps lines) .idle).mortal) :=
    Attempt.run_lift_bind opening _
  unfold Attempt.run
  rw [unfolded, Program.run_bind]
  rcases opening.run handler start with ⟨_ | _, middle⟩ <;> rfl

/-- Throwing the result away changes nothing else. -/
theorem run_discard_snd {σ α : Type} (handler : Handler σ) (attempt : Attempt α) (run : Run σ) :
    ((discard attempt : Attempt PUnit).run handler run).2 = (attempt.run handler run).2 := by
  rw [Attempt.discard_eq_bind, Attempt.run_bind]
  rcases attempt.run handler run with ⟨_ | _, after⟩ <;> rfl

theorem session_within {ω : Type} {operator : Operator ω} {reach : Reach} {devices : Devices}
    {lacks : Bool} (reaches : devices.Reaches reach) {opening : Program Unit}
    (quiet : opening.Only Action.Quiet) (panel : Panel) (lines : Nat) (start : Run (ω × Host)) :
    Within reach start.world.2 (((Plan.session opening panel).program lines).run
      (operator.at (devices.station.ending lacks)) start).2.world.2 := by
  have steady : (devices.station.ending lacks).Steady := devices.station_steady
  have same : (opening.run (operator.at _) start).2.world.2 = _ := steady.run_quiet quiet start
  rw [run_session]
  rcases opened : opening.run (operator.at (devices.station.ending lacks)) start with
    ⟨_ | _, middle⟩ <;> rw [opened] at same <;> dsimp only at same ⊢ <;> rw [← same]
  · exact .refl reach _
  · rw [run_discard_snd]
    exact Session.steps_within reaches panel _ Session.fit_idle

/-! ## Whole runs -/

section
variable {ω : Type} {operator : Operator ω} (lines : Nat) (start : Run (ω × Host))

theorem Prepared.Quiet.leaves (quiet : prepared.Quiet) :
    ((prepared.plan.program lines).run (operator.at prepared.station) start).2.world.2 =
      start.world.2 := by
  obtain ⟨steady, program, planned, quiet⟩ := quiet
  rw [planned, ← Attempt.run_snd]
  exact steady.run_quiet quiet start

theorem LimitWriter.carries_out_within {options : LimitWriter}
    (planned : ((Invocation.limitWriter options).prepare host layout command).2 = .ok prepared) :
    Within ((Invocation.limitWriter options).reach host layout) start.world.2
      ((prepared.plan.program lines).run (operator.at prepared.station) start).2.world.2 := by
  rw [LimitWriter.prepare_eq] at planned
  cases opened : openWindow host layout .readWrite with
  | error fault =>
    rw [opened] at planned
    cases planned
  | ok window =>
    rw [opened] at planned
    cases planned
    obtain ⟨published, found, mapped⟩ := published_of_openWindow opened
    rw [← Attempt.run_snd]
    apply Program.run_within (answer_onWindow (mem_windowRegister found mapped))
    dsimp only [Plan.program]
    rw [Attempt.discard_eq_bind]
    exact Attempt.Only.bind (run_onWindow _ _ _ _) fun _ => Attempt.Only.pure _

theorem LimitPanel.carries_out_within {options : LimitPanel}
    (planned : options.prepare host layout = .ok prepared) :
    Within ((Invocation.limitPanel options).reach host layout) start.world.2
      ((prepared.plan.program lines).run (operator.at prepared.station) start).2.world.2 := by
  obtain ⟨devices, lacks, opening, panel, rfl, reaches, quiet⟩ := LimitPanel.prepare_ok planned
  exact session_within reaches quiet panel lines start

end

variable (tool : Tool) (terminal : Terminal)

/-- What holds of the host before and after every plan, holds after a run. -/
theorem Invocation.run_leaves {invocation : Invocation} (holds : Host → Prop) (before : holds host)
    (each : ∀ prepared, (invocation.prepare host layout command).2 = .ok prepared →
      holds ((prepared.plan.program terminal.lineCount).run
        (Terminal.operator.at prepared.station) { world := (terminal, host) }).2.world.2) :
    holds (invocation.run tool host layout command terminal).host := by
  unfold Invocation.run
  rcases planned : invocation.prepare host layout command with ⟨warnings, fault | prepared⟩
  · exact before
  · exact each prepared (congrArg Prod.snd planned)

theorem Invocation.run_quiet {invocation : Invocation}
    (quiet : ∀ prepared, (invocation.prepare host layout command).2 = .ok prepared →
      prepared.Quiet) : (invocation.run tool host layout command terminal).host = host := by
  apply Invocation.run_leaves tool terminal (· = host) rfl
  intro prepared planned
  exact (quiet prepared planned).leaves _ _

theorem WindowScanner.run_leaves (options : WindowScanner) :
    ((Invocation.windowScanner options).run tool host layout command terminal).host = host :=
  Invocation.run_quiet tool terminal fun _ planned => WindowScanner.prepare_quiet planned

theorem WindowReader.run_leaves (options : WindowReader) :
    ((Invocation.windowReader options).run tool host layout command terminal).host = host :=
  Invocation.run_quiet tool terminal fun _ planned => WindowReader.prepare_quiet planned

theorem Invocation.run_within (invocation : Invocation) :
    Within (invocation.reach host layout) host
      (invocation.run tool host layout command terminal).host := by
  cases invocation with
  | windowScanner options =>
    rw [WindowScanner.run_leaves]
    exact .refl _ host
  | windowReader options =>
    rw [WindowReader.run_leaves]
    exact .refl _ host
  | limitWriter options =>
    apply Invocation.run_leaves tool terminal (Within _ host) (.refl _ host)
    intro prepared planned
    exact LimitWriter.carries_out_within terminal.lineCount { world := (terminal, host) } planned
  | limitPanel options =>
    apply Invocation.run_leaves tool terminal (Within _ host) (.refl _ host)
    intro prepared planned
    exact LimitPanel.carries_out_within terminal.lineCount { world := (terminal, host) } planned

/-- No run gets to the units in use. -/
theorem Invocation.reach_spares_unit (invocation : Invocation) {i : Nat}
    (inside : i < PowerUnit.register + 8) :
    (invocation.reach host layout).Spares layout.registerFile.names i := by
  have window {offset start : Nat} :
      (layout.registerFile.names, start) ∉ windowRegister host layout offset := by
    intro member
    unfold windowRegister at member
    split at member
    · exact registerFile_ne_memory layout (Prod.mk.inj (List.mem_singleton.1 member)).1
    · cases member
  cases invocation with
  | windowScanner | windowReader => exact ⟨nofun, nofun⟩
  | limitWriter options => exact ⟨nofun, fun start member => (window member).elim⟩
  | limitPanel options =>
    refine ⟨registerFile_not_zoneFile layout, fun start member => ?_⟩
    rcases List.mem_cons.1 member with same | member
    · obtain rfl : start = PowerLimit.register := (Prod.mk.inj same).2
      -- The unit register ends two bytes below the limits.
      left
      change i < 0x606 + 8 at inside
      change i < 0x610
      omega
    · exact (window member).elim

theorem Invocation.reach_texts (invocation : Invocation) {names : List String}
    (apart : names ∉ zoneFiles layout) : names ∉ (invocation.reach host layout).texts := by
  cases invocation with
  | limitPanel => exact apart
  | limitWriter | windowScanner | windowReader => exact List.not_mem_nil

/-- The usage and the two tools that look leave the host as it is. Writing changes the window's
copy at most, a session both copies and the files of the zone. No run makes or removes a file or
changes how long the register file or memory is, and the units in use stay what they are. -/
theorem run_stays_within (arguments : List String) (host : Host) (layout : Layout)
    (command : String) (terminal : Terminal) :
    ∃ after, (tool.run arguments host layout command terminal).host = after ∧
      (tool.parse arguments = none ∨ tool = .windowScanner ∨ tool = .windowReader →
        after = host) ∧
      (∀ options, tool.parse arguments = some (.limitWriter options) →
        Within
          { registers := windowRegister host layout (options.offset.getD layout.limitOffset) }
          host after) ∧
      (∀ options, tool.parse arguments = some (.limitPanel options) →
        Within
          { registers := (layout.registerFile.names, PowerLimit.register) ::
              windowRegister host layout (options.offset.getD layout.limitOffset)
            texts := zoneFiles layout }
          host after) ∧
      (∀ names, after.handle? names = host.handle? names) ∧
      (∀ names ∈ [layout.registerFile.names, layout.memory.names],
        (after.find? names).map (Node.map Contents.size) =
          (host.find? names).map (Node.map Contents.size)) ∧
      ∀ handle, host.handle? layout.registerFile.names = some handle →
        after.readWord handle PowerUnit.register = host.readWord handle PowerUnit.register := by
  cases parsed : tool.parse arguments with
  | none =>
    have same : (tool.run arguments host layout command terminal).host = host := by
      unfold Tool.run
      rw [parsed]
    refine ⟨host, same, fun _ => rfl, ?_, ?_, fun _ => rfl, fun _ _ => rfl, fun _ _ => rfl⟩
    · rintro options ⟨⟩
    · rintro options ⟨⟩
  | some invocation =>
    have ran : (tool.run arguments host layout command terminal).host =
        (invocation.run tool host layout command terminal).host := by
      unfold Tool.run
      rw [parsed]
    have within : Within (invocation.reach host layout) host
        (invocation.run tool host layout command terminal).host :=
      invocation.run_within tool terminal
    refine ⟨_, ran, ?_, ?_, ?_, within.handle, ?_, ?_⟩
    · rintro (absent | rfl | rfl)
      · cases absent
      · obtain ⟨options, _, rfl⟩ := Option.map_eq_some_iff.1 parsed
        exact WindowScanner.run_leaves _ terminal options
      · obtain ⟨options, _, rfl⟩ := Option.map_eq_some_iff.1 parsed
        exact WindowReader.run_leaves _ terminal options
    · rintro options ⟨⟩
      exact within
    · rintro options ⟨⟩
      exact within
    · intro names member
      apply within.size_eq
      apply invocation.reach_texts
      rcases List.mem_cons.1 member with rfl | member
      · exact registerFile_not_zoneFile layout
      · rw [List.mem_singleton.1 member]
        exact memory_not_zoneFile layout
    · intro handle stands
      apply within.readWord_eq stands
      intro i _ inside
      exact invocation.reach_spares_unit inside

end PackagePower.CommandLine
