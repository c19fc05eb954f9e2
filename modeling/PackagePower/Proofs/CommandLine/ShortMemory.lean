import PackagePower.Proofs.CommandLine.Ending
import PackagePower.Proofs.CommandLine.Reach
import PackagePower.Proofs.Device.Fault
import PackagePower.Proofs.Program.Mortal
import PackagePower.Proofs.Program.Outcome
import PackagePower.Proofs.Scan

/-!
# Runs over memory that ends early

Memory that ends inside the window ends the process that gets to the end of it. A listing gets to
all its registers, a scan to all its slots, and an order to the one register it is for. A session
gets there by its first access to the window's copy; a session that does not, goes on until it
exits.
-/

namespace PackagePower

variable {host : Host} {layout : Layout} {window : Window}

/-! ## Faults of loads -/

theorem Window.load_of_lacks {offset : Nat} (lacks : window.lacks host offset = true) :
    window.load host offset = .error .noPage := by
  unfold load
  rw [lacks]
  rfl

theorem Window.load_of_reaches {offset : Nat} (reaches : window.lacks host offset = false) :
    window.load host offset = window.read host offset := by
  unfold load
  rw [reaches]
  rfl

/-! ## Listing registers -/

namespace PackageRegister

theorem mem_all (register : PackageRegister) : register ∈ all := by
  cases register <;> decide

theorem ascending_all : all.Pairwise fun first later => first.offset ≤ later.offset := by decide

theorem aligned (register : PackageRegister) : register.offset % 4 = 0 := by
  cases register <;> rfl

end PackageRegister

/-- What reading the registers one after another comes to. -/
def Window.readThrough (window : Window) (host : Host) (registers : List PackageRegister) :
    Except Fault Unit :=
  registers.forM fun register => (fun _ => ()) <$> window.load host register.offset

/-- The first register that memory lacks is got to, as those before it are in the window. -/
theorem Window.readThrough_of_lacks {registers : List PackageRegister} {register : PackageRegister}
    (ascending : registers.Pairwise fun first later => first.offset ≤ later.offset)
    (member : register ∈ registers) (lacks : window.Lacks host register.offset) :
    window.readThrough host registers = .error .noPage := by
  induction registers with
  | nil => cases member
  | cons first rest ih =>
    obtain ⟨before, later⟩ := List.pairwise_cons.1 ascending
    change ((fun _ => ()) <$> window.load host first.offset >>= fun _ =>
      window.readThrough host rest) = _
    cases ends : window.lacks host first.offset with
    | true =>
      rw [load_of_lacks ends]
      rfl
    | false =>
      have further : register ∈ rest := by
        rcases List.mem_cons.1 member with rfl | further
        · rw [lacks_iff.2 lacks] at ends
          cases ends
        · exact further
      have inside : window.contains first.offset = true := by
        have below := before register further
        have reach := lacks.2.1
        simp only [contains, first.aligned, Bool.and_eq_true, decide_eq_true_eq, true_and]
        omega
      rw [load_of_reaches ends, read_eq_ok.2 ⟨inside, rfl⟩]
      exact ih later further

theorem Window.dump_comesTo (window : Window) (host : Host) {σ : Type} (handler : Handler σ)
    (world : σ) (unit : Option PowerUnit) :
    ∃ lines, (window.dump host unit).ComesTo handler world lines
      (window.readThrough host PackageRegister.all) world := by
  have each (register : PackageRegister) :
      ∃ lines, (window.showRegister host unit register).ComesTo handler world lines
        ((fun _ => ()) <$> window.load host register.offset) world := by
    unfold showRegister
    have loaded := Attempt.comesTo_ofExcept handler world (window.load host register.offset)
    cases ended : window.load host register.offset with
    | ok value =>
      rw [ended] at loaded
      exact ⟨_, loaded.bind (Attempt.comesTo_say handler world _)⟩
    | error fault =>
      rw [ended] at loaded
      exact ⟨_, loaded.bind_error⟩
  obtain ⟨lines, listed⟩ := Attempt.comesTo_forM handler world each PackageRegister.all
  exact ⟨_, (Attempt.comesTo_say handler world _).bind listed⟩

/-! ## Accesses that end the process -/

/-- The event of an access to the window's copy. -/
def Event.OnWindowCopy : Event → Prop
  | .performed (.read copy) _ => copy = .mmio
  | .performed (.write copy _) _ => copy = .mmio
  | _ => False

section
variable {ω σ : Type} {operator : Operator ω} {station : Station σ} {lacks : Bool}

theorem processEnded_ending {α : Type} {reply : Except Fault α} {copy : RegisterCopy}
    (alive : FaultsIn (· ≠ .noPage) reply) :
    processEnded (if lacks ∧ copy = .mmio then .error .noPage else reply) = true ↔
      lacks = true ∧ copy = .mmio := by
  by_cases lost : lacks = true ∧ copy = .mmio
  · rw [if_pos lost]
    exact iff_of_true rfl lost
  · rw [if_neg lost]
    refine iff_of_false ?_ lost
    unfold processEnded
    split
    · exact (alive _ rfl rfl).elim
    · exact Bool.false_ne_true

/-- Beside devices that go on, exactly the accesses to a copy that memory lacks are fatal. -/
theorem fatal_iff (alive : station.RepliesIn (· ≠ .noPage)) {world last : ω × σ}
    {events : List Event}
    (replays : (operator.at (station.ending lacks)).Replays world events last) {event : Event}
    (member : event ∈ events) : event.Fatal ↔ lacks = true ∧ event.OnWindowCopy := by
  cases event with
  | printed => exact iff_of_false id And.right
  | performed action reply =>
    obtain ⟨_, _, middle, _, _, rfl, _⟩ := Handler.replays_mem member replays
    cases action with
    | ask | decide | warn | readZone | writeZone => exact iff_of_false Bool.false_ne_true And.right
    | read copy => exact processEnded_ending (alive.read copy middle.2)
    | write copy value => exact processEnded_ending (alive.write copy value middle.2)

end

/-! ## Sessions -/

namespace CommandLine.LimitPanel

variable (devices : Devices) (unit : PowerUnit) (host : Host) (offset : Nat) (terminal : Terminal)

def handler : Handler (Terminal × Host) :=
  Terminal.operator.at (devices.station.ending (devices.window.lacks host offset))

/-- A session over open devices, and how it ends. -/
def session : Except Fault SessionState × Run (Terminal × Host) :=
  let opened := (opening devices unit).run (handler devices host offset) { world := (terminal, host) }
  (Session.steps (panel devices unit) (Session.enoughSteps terminal.lineCount) .idle).mortal.run
    (handler devices host offset) opened.2

theorem opening_run : ∃ opened lines,
    (opening devices unit).run (handler devices host offset) { world := (terminal, host) } =
        (some (), opened) ∧
      opened.world = (terminal, host) ∧ opened.Unlimited ∧
      opened.history = List.map (Event.line .out) lines := by
  have start := Run.unlimited_start (terminal, host)
  have replays (lines : List String) : (handler devices host offset).Replays (terminal, host)
      (lines.map (Event.line .out)) (terminal, host) := by
    rw [← List.append_nil (lines.map _), Handler.replays_lines]
    rfl
  obtain ⟨opened, finished, history, world⟩ := Program.run_of_trace start
    (Program.trace_sayAll.2 rfl) (replays _)
  obtain ⟨_, _, again, unlimited⟩ :=
    (opening devices unit).run_unlimited (handler devices host offset) start
  cases finished.symm.trans again
  exact ⟨_, _, finished, world, unlimited, history⟩

theorem run_eq_session (devices : Devices) (unit : PowerUnit) :
    ((Plan.session (opening devices unit) (panel devices unit)).program terminal.lineCount).run
        (handler devices host offset) { world := (terminal, host) } =
      ((session devices unit host offset terminal).1.map fun _ => (),
        (session devices unit host offset terminal).2) := by
  obtain ⟨opened, _, finished, _⟩ := opening_run devices unit host offset terminal
  unfold session
  rw [run_session, finished]
  dsimp only
  rw [Attempt.discard_eq_bind, Attempt.run_bind]
  generalize Attempt.run _ _ opened = ended
  rcases ended with ⟨_ | _, after⟩ <;> rfl

/-- A session reaches its exit, or an access to the window's copy ends its process. -/
theorem session_ends :
    ((session devices unit host offset terminal).1 = .ok .exit ∧
        ¬ (devices.window.Lacks host offset ∧
          ∃ event ∈ (session devices unit host offset terminal).2.history,
            event.OnWindowCopy)) ∨
      (session devices unit host offset terminal).1 = .error .noPage ∧
        devices.window.Lacks host offset ∧
          ∃ event ∈ (session devices unit host offset terminal).2.history,
            event.OnWindowCopy := by
  obtain ⟨opened, lines, finished, world, unlimited, told⟩ :=
    opening_run devices unit host offset terminal
  obtain ⟨events, history, replays, ended⟩ := Program.mortal_run
    (Session.steps (panel devices unit) (Session.enoughSteps terminal.lineCount) .idle)
    (handler devices host offset) unlimited
  have alive : devices.station.RepliesIn (· ≠ .noPage) :=
    devices.station_ofDevice.mono fun _ device => device.outlived
  have fatal {event : Event} (member : event ∈ events) := fatal_iff alive replays member
  unfold session
  rw [finished]
  dsimp only
  rw [history, told]
  have touched : (∃ event ∈ lines.map (Event.line .out) ++ events, event.OnWindowCopy) ↔
      ∃ event ∈ events, event.OnWindowCopy := by
    simp [Event.line, Event.OnWindowCopy, or_and_right, exists_or]
  rw [touched, ← Window.lacks_iff]
  rcases ended with ⟨state, reached, trace, spared⟩ | ⟨killed, event, member, died⟩
  · refine .inl ⟨?_, ?_⟩
    · rw [reached]
      obtain ⟨_, steps, _⟩ := Program.run_of_trace unlimited trace replays
      have course : (Session.course (panel devices unit) (handler devices host offset) opened
          (Session.enoughSteps opened.world.1.lineCount)).1 = some state := by
        rw [world]
        exact congrArg Prod.fst steps
      rcases Terminal.session_ends (panel devices unit) _ opened with none | exits
      · cases none.symm.trans course
      · cases exits.symm.trans course
        rfl
    · rintro ⟨lacks, event, member, access⟩
      exact spared event member ((fatal member).2 ⟨lacks, access⟩)
  · obtain ⟨lacks, access⟩ := (fatal member).1 died
    exact .inr ⟨killed, lacks, event, member, access⟩

end CommandLine.LimitPanel
end PackagePower
