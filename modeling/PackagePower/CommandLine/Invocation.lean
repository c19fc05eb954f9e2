import PackagePower.CommandLine.LimitPanel
import PackagePower.CommandLine.LimitWriter
import PackagePower.CommandLine.Terminal
import PackagePower.CommandLine.WindowReader
import PackagePower.CommandLine.WindowScanner

/-!
# Whole runs of the tools

A run parses its arguments, prepares over the host, and carries its plan out at a terminal.
It ends with status 0, with the status of the fault that ended it, or, where the arguments
call for the usage, with status 2 and nothing done.
-/

namespace PackagePower.CommandLine

inductive Tool where
  | limitWriter
  | windowScanner
  | windowReader
  | limitPanel
  deriving DecidableEq

inductive Invocation where
  | limitWriter (options : LimitWriter)
  | windowScanner (options : WindowScanner)
  | windowReader (options : WindowReader)
  | limitPanel (options : LimitPanel)

namespace Tool

def all : List Tool := [.limitWriter, .windowScanner, .windowReader, .limitPanel]

def name : Tool → String
  | .limitWriter => LimitWriter.name
  | .windowScanner => WindowScanner.name
  | .windowReader => WindowReader.name
  | .limitPanel => LimitPanel.name

/-- What `arguments` ask of the tool; nothing, where they call for the usage. -/
def parse (tool : Tool) (arguments : List String) : Option Invocation :=
  match tool with
  | .limitWriter => (LimitWriter.parse arguments).map .limitWriter
  | .windowScanner => (WindowScanner.parse arguments).map .windowScanner
  | .windowReader => (WindowReader.parse arguments).map .windowReader
  | .limitPanel => (LimitPanel.parse arguments).map .limitPanel

end Tool

/-- Prepares a run over `host`: warnings, and the plan or what kept it from being made. -/
def Invocation.prepare (invocation : Invocation) (host : Host) (layout : Layout)
    (command : String) : List String × Except Fault Prepared :=
  match invocation with
  | .limitWriter options => options.prepare host layout command
  | .windowScanner options => ([], options.prepare host layout)
  | .windowReader options => ([], options.prepare host layout)
  | .limitPanel options => ([], options.prepare host layout)

structure Outcome where
  status : Nat
  out : String
  err : String
  warnings : List String
  host : Host

def usageStatus : Nat := 2

def faultLine (tool : Tool) (fault : Fault) : String := s!"{tool.name}: {fault.message}\n"

def statusOf (result : Except Fault Unit) : Nat :=
  match result with
  | .ok () => 0
  | .error fault => fault.exitStatus

/-- What a run says at its end. A process that was ended says nothing. -/
def endText (tool : Tool) (result : Except Fault Unit) : String :=
  match result with
  | .ok () => ""
  | .error .noPage => ""
  | .error fault => faultLine tool fault

/-- A run of a tool whose arguments are understood. -/
def Invocation.run (tool : Tool) (invocation : Invocation) (host : Host) (layout : Layout)
    (command : String) (terminal : Terminal) : Outcome :=
  match invocation.prepare host layout command with
  | (warnings, .error fault) =>
    { status := fault.exitStatus, out := "", err := faultLine tool fault, warnings, host }
  | (warnings, .ok prepared) =>
    let handler := Terminal.operator.at prepared.station
    let program := prepared.plan.program terminal.lineCount
    let (result, run) := program.run handler { world := (terminal, host) }
    { status := statusOf result
      out := String.join (run.history.map shownText)
      err := String.join (run.history.map complaint) ++ endText tool result
      warnings := warnings ++ run.history.filterMap warning?
      host := run.world.2 }

def Tool.run (tool : Tool) (arguments : List String) (host : Host) (layout : Layout)
    (command : String) (terminal : Terminal) : Outcome :=
  match tool.parse arguments with
  | none => { status := usageStatus, out := "", err := "", warnings := [], host }
  | some invocation => invocation.run tool host layout command terminal

end PackagePower.CommandLine
