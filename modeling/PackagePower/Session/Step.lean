import PackagePower.Program.Basic
import PackagePower.Report
import PackagePower.Session.Menu

/-!
# The interactive session

A session shows, sets and synchronises the limits. Every change goes through `confirm`:
values are computed and shown first, then each write is put to the operator by itself. A
write that fails ends the queue, and writes that landed before it stay.

A step ends in the next state. Faults are reported and lead back to `idle`.
-/

namespace PackagePower

namespace PendingWrite

/-- The line that shows a write before any is confirmed. -/
def describe : PendingWrite → String
  | .register .msr _ next => s!"MSR  new = {next.text}"
  | .register .mmio _ next => s!"MMIO new = {next.text}"
  | .zone limits =>
    s!"Powercap new = PL1 {Text.decimal limits.first.toNat}uW " ++
      s!"PL2 {Text.decimal limits.second.toNat}uW"

def question : PendingWrite → String
  | .register .msr _ _ => "Write MSR?"
  | .register .mmio _ _ => "Write MMIO?"
  | .zone _ => "Write kernel powercap (intel-rapl)?"

def perform : PendingWrite → Attempt Unit
  | .register copy _ next => .write copy next
  | .zone limits => .writeZone limits

/-- The line that reports the write. -/
def receipt : PendingWrite → String
  | .register copy _ next => s!"Wrote {copy.name} = {next.text}"
  | .zone limits =>
    s!"Wrote powercap PL1={Text.decimal limits.first.toNat}uW " ++
      s!"PL2={Text.decimal limits.second.toNat}uW"

end PendingWrite

inductive SessionState where
  | idle
  | showStatus
  | setLimits
  | syncLimits
  /-- Writes computed, shown and still to be decided. -/
  | confirm (queue : List PendingWrite)
  | exit
  deriving DecidableEq

/-- What a session is over: the units in use, and the devices by the names shown for them. -/
structure Panel where
  unit : PowerUnit
  place : RegisterCopy → String
  zone : String

namespace Session

/-- The most watts that either limit may be set to. -/
def mostWatts : Binary64 := .ofNat 5000

/-- The answer that a line holds. A blank line and `q` cancel. -/
def answerOf (line : String) : Option String :=
  let answer := Text.trim line
  if answer = "" ∨ answer = "q" ∨ answer = "Q" then none else some answer

/-- An answer to `label`, unless the operator cancels or input has ended. -/
def ask (label : String) : Program (Option String) := do
  let line ← Program.act (.ask label)
  pure (line.bind answerOf)

def askWatts (label : String) : Attempt (Option Binary64) := do
  match ← ask label with
  | none => pure none
  | some answer => do
    let watts ← Attempt.ofExcept (Quantity.watts answer)
    some <$> Attempt.ofExcept (inRange (checkWatts mostWatts watts))

def canceled : Attempt SessionState := do
  Program.sayAll ["Canceled.", ""]
  pure .idle

def preview (queue : List PendingWrite) : Attempt SessionState := do
  Program.sayAll (queue.map PendingWrite.describe)
  pure (.confirm queue)

def menu : Attempt SessionState := do
  Program.sayAll ("Menu:" :: (Menu.all : List SessionChoice).map fun item => "  " ++ Menu.entry item)
  match ← ask "Select: " with
  | none => do
    Program.say "Exiting."
    pure .exit
  | some answer =>
    match (Menu.pick? answer : Option SessionChoice) with
    | some .showStatus => pure .showStatus
    | some .setLimits => pure .setLimits
    | some .syncLimits => pure .syncLimits
    | some .exit => do
      Program.say "Done."
      pure .exit
    | none => do
      Program.sayAll ["Unknown choice.", ""]
      pure .idle

/-- Watts of a constraint, to two places. -/
def constraintWatts (microwatts : UInt64) : String :=
  ((Binary64.ofNat microwatts.toNat).overNat 1000000).fixed 2

def zoneReport (directory : String) : Except Fault ZoneLimits → List String
  | .ok limits =>
    [s!"Powercap {directory}",
      s!"  PL1  = {Text.decimal limits.first.toNat} uW ({constraintWatts limits.first} W)",
      s!"  PL2  = {Text.decimal limits.second.toNat} uW ({constraintWatts limits.second} W)"]
  | .error fault => [s!"Powercap unavailable: {fault.message}"]

def showCopy (panel : Panel) (copy : RegisterCopy) : Attempt Unit := do
  let value ← Attempt.read copy
  Program.sayAll (PowerLimit.report s!"{padRight 4 copy.name} {panel.place copy}" value panel.unit)

def showStatus (panel : Panel) : Attempt SessionState := do
  showCopy panel .msr
  showCopy panel .mmio
  let limits ← Attempt.readZone.outcome
  Program.sayAll (zoneReport panel.zone limits)
  Program.say ""
  pure .idle

/-- The copies that new limits are written to, in order. -/
def copies : WriteTarget → List RegisterCopy
  | .msr => [.msr]
  | .mmio => [.mmio]
  | .both => [.msr, .mmio]

def limitWrite (first second : LimitUnits) (copy : RegisterCopy) : Attempt PendingWrite := do
  let current ← Attempt.read copy
  pure (.register copy current (current.withLimits first second))

def limitLine (unit : PowerUnit) (first second : LimitUnits) : String :=
  s!"PL1 = {first.text} ({(unit.watts first.count).fixed 3} W), " ++
    s!"PL2 = {second.text} ({(unit.watts second.count).fixed 3} W)"

/-- Computes the writes for limits in watts and shows them. -/
def propose (panel : Panel) (target : WriteTarget) (watts₁ watts₂ : Binary64) :
    Attempt SessionState := do
  let first ← Attempt.ofExcept (inRange (panel.unit.limitUnits watts₁))
  let second ← Attempt.ofExcept (inRange (panel.unit.limitUnits watts₂))
  let registers ← (copies target).mapM (limitWrite first second)
  let zoneFirst ← Attempt.ofExcept (inRange (microwatts watts₁))
  let zoneSecond ← Attempt.ofExcept (inRange (microwatts watts₂))
  Program.say (limitLine panel.unit first second)
  preview (registers ++ [.zone ⟨zoneFirst, zoneSecond⟩])

def setLimits (panel : Panel) : Attempt SessionState := do
  let some watts₁ ← askWatts "PL1 watts (q to cancel): " | canceled
  let some watts₂ ← askWatts "PL2 watts (q to cancel): " | canceled
  Program.say s!"Target: {Menu.line WriteTarget}"
  let some answer ← ask "Select target: " | canceled
  match (Menu.pick? answer : Option WriteTarget) with
  | none => throw (.parse (.target answer))
  | some target => propose panel target watts₁ watts₂

/-- The copy that is read and the copy that is written. -/
def ends : SyncDirection → RegisterCopy × RegisterCopy
  | .msrToMmio => (.msr, .mmio)
  | .mmioToMsr => (.mmio, .msr)

def syncLimits : Attempt SessionState := do
  Program.say s!"Sync: {Menu.line SyncDirection}"
  let some answer ← ask "Select direction: " | canceled
  match (Menu.pick? answer : Option SyncDirection) with
  | none => throw (.parse (.direction answer))
  | some direction => do
    let (source, target) := ends direction
    let next ← Attempt.read source
    let current ← Attempt.read target
    preview [.register target current next]

/-- What is logged when a failure leaves writes undecided. -/
def droppedWarnings (rest : List PendingWrite) : List String :=
  if rest.isEmpty then [] else
    [s!"Dropping {Text.decimal rest.length} queued write(s) after failure"]

/-- Decides the first write of a queue. -/
def confirm : List PendingWrite → Attempt SessionState
  | [] => do
    Program.say ""
    pure .idle
  | pending :: rest => do
    if ← Program.act (.decide pending) then
      match ← pending.perform.outcome with
      | .ok () => do
        Program.sayOrWarn (droppedWarnings rest) pending.receipt
        pure (.confirm rest)
      | .error fault => do
        (droppedWarnings rest).forM fun text => Program.act (.warn text)
        throw fault
    else
      Program.say s!"Skipped: {pending.question}"
      pure (.confirm rest)

def advance (panel : Panel) : SessionState → Attempt SessionState
  | .idle => menu
  | .showStatus => showStatus panel
  | .setLimits => setLimits panel
  | .syncLimits => syncLimits
  | .confirm queue => confirm queue
  | .exit => pure .exit

/-- One step: what the state does, and a fault reported. A broken stream ends the run where it
happens, and a device never replies with one, so a fault that is found here can be reported. -/
def step (panel : Panel) (state : SessionState) : Program SessionState := do
  match ← ExceptT.run (advance panel state) with
  | .ok next => pure next
  | .error fault => do
    Program.complain s!"error: {fault.message}"
    Program.say ""
    pure .idle

/-- At most `count` steps, fewer where the session ends before. -/
def steps (panel : Panel) : (count : Nat) → SessionState → Program SessionState
  | 0, state => pure state
  | _ + 1, .exit => pure .exit
  | count + 1, state => step panel state >>= steps panel count

/-- Steps that end every session whose operator gives `lines` lines before input ends. -/
def enoughSteps (lines : Nat) : Nat := 2 * lines + 1

end Session
end PackagePower
