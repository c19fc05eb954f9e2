import PackagePower.Program.Station
import PackagePower.Session.Step

/-!
# What a tool is about to do

Preparing a tool reads the host and opens what the tool needs, and leaves a plan: what to
print and do over the opened devices. Nothing has been written by then, and memory keeps its
length from then on, so what the window lacks is settled.
-/

namespace PackagePower.CommandLine

inductive Plan where
  | single (program : Attempt Unit)
  /-- A session, until it ends. -/
  | session (opening : Program Unit) (panel : Panel)

structure Prepared where
  station : Station Host
  plan : Plan

/-- The plan as one program, where input has at most `lines` lines. -/
def Plan.program (lines : Nat) : Plan → Attempt Unit
  | .single program => program
  | .session opening panel => do
    opening
    discard (Session.steps panel (Session.enoughSteps lines) .idle).mortal

/-- The units that the processor's register file gives. -/
def hardwareUnit (host : Host) (layout : Layout) : Except Fault PowerUnit := do
  let file ← RegisterFile.openFor host layout .readOnly
  file.powerUnit host

/-- The window in the place that discovery finds. -/
def openWindow (host : Host) (layout : Layout) (access : Access) : Except Fault Window := do
  let published ← discover host layout
  Window.map host layout published.address access

end PackagePower.CommandLine
