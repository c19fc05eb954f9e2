import PackagePower.CommandLine.Invocation

/-!
# The program

The first argument names the tool, the others are the tool's. What a tool may look at is read
below the device root before it starts, and every write goes to its file at once, so that a
session which is broken off leaves what it had written.

The device root holds plain files. This module does NOT drive a device that has to be
addressed at a position.
-/

namespace PackagePower.CommandLine

/-! ## Loading and saving -/

/-- Names in a directory; none where there is no directory. -/
def namesIn (directory : Path) : IO (Option (List String)) := do
  try
    let entries ← (← IO.FS.realPath directory.text).readDir
    return some (entries.toList.map (·.fileName))
  catch _ => return none

def bytesAt (path : Path) : IO (Option ByteArray) := do
  try return some (← IO.FS.readBinFile path.text)
  catch _ => return none

/-- Adds the file at the first of `paths` where there is one. -/
def loadFile (host : Host) : List Path → IO Host
  | [] => return host
  | path :: rest => do
    match ← bytesAt path with
    | some bytes => return host.create path.names (.file (.ofBytes bytes))
    | none => loadFile host rest

/-- Adds what stands at `path`, or the file above it that keeps it from being reached. -/
def load (host : Host) (path : Path) : IO Host := do
  match ← namesIn path with
  | some _ => return host.create path.names .directory
  | none =>
    loadFile host (path :: (Host.above path.names).map fun names => { path with names })

def writable (layout : Layout) : RegisterCopy → Path
  | .msr => layout.registerFile
  | .mmio => layout.memory

def constraints (layout : Layout) : List Path :=
  let zone := Zone.ofLayout layout
  [zone.constraint .first, zone.constraint .second]

def loadAll (layout : Layout) : IO Host := do
  let functions := (← namesIn layout.busFunctions).getD []
  let consulted := functions.flatMap fun name => Bridge.consulted (layout.busFunctions.child name)
  let devices := [writable layout .msr, writable layout .mmio] ++ constraints layout
  (layout.busFunctions :: consulted ++ devices).foldlM load Host.empty

def save (host : Host) (paths : List Path) : IO Unit :=
  paths.forM fun path => do
    match host.find? path.names with
    | some (.file contents) => IO.FS.writeBinFile path.text contents.toBytes
    | _ => pure ()

/-! ## A live terminal -/

/-- The bytes up to the end of a line or of the input. -/
partial def lineBytes (input : IO.FS.Stream) (before : ByteArray) : IO ByteArray := do
  let byte ← input.read 1
  let bytes := before ++ byte
  if byte.isEmpty || byte[0]? = some Terminal.lineEnd then return bytes
  lineBytes input bytes

def prompted (label : String) : IO (Option String) := do
  let output ← IO.getStdout
  output.putStr label
  output.flush
  let bytes ← lineBytes (← IO.getStdin) ByteArray.empty
  return ({ input := bytes.toList : Terminal }).readLine.1

def warn (text : String) : IO Unit := IO.eprintln ("WARN " ++ text)

/-- Whether a channel took a text. -/
def put (channel : Channel) (text : String) : IO Bool := do
  try
    let stream ← match channel with
      | .out => IO.getStdout
      | .err => IO.getStderr
    stream.putStr text
    stream.flush
    return true
  catch _ => return false

/-! ## Carrying out a plan -/

structure Live where
  layout : Layout
  station : Station Host
  host : IO.Ref Host

namespace Live
variable (live : Live)

def answer : (action : Action) → IO action.Reply
  | .ask label => prompted label
  | .decide pending => do
    let line ← prompted (Terminal.questionLabel pending)
    return (line.map Terminal.isYes).getD false
  | .read copy => do return (live.station.read copy (← live.host.get)).1
  | .write copy value => do
    let (reply, host) := live.station.write copy value (← live.host.get)
    live.host.set host
    save host [writable live.layout copy]
    return reply
  | .readZone => do return live.station.readZone (← live.host.get)
  | .writeZone limits => do
    let (reply, host) := live.station.writeZone limits (← live.host.get)
    live.host.set host
    save host (constraints live.layout)
    return reply
  | .warn text => warn text

/-- The result of a program, unless a channel did not take a text. -/
def run {α : Type} : Program α → IO (Option α)
  | .done value => return some value
  | .print channel text lastWords next => do
    if ← put channel text then run next
    else
      lastWords.forM warn
      return none
  | .perform action next => do
    let reply ← live.answer action
    run (next reply)

partial def session (panel : Panel) (state : SessionState) : IO (Except Fault Unit) := do
  if state = .exit then return .ok ()
  match ← live.run (ExceptT.run (Session.step panel state).mortal) with
  | some (.ok next) => session panel next
  | some (.error fault) => return .error fault
  | none => return .error .brokenStream

def carryOut : Plan → IO (Except Fault Unit)
  | .single program => do return (← live.run (ExceptT.run program)).getD (.error .brokenStream)
  | .session opening panel => do
    match ← live.run opening with
    | some () => live.session panel .idle
    | none => return .error .brokenStream

end Live

/-- Runs an understood command line and gives the exit status. -/
def Invocation.launch (tool : Tool) (invocation : Invocation) : IO Nat := do
  let layout := Layout.ofEnvironment (← IO.getEnv Layout.rootVariable)
  let host ← loadAll layout
  let (warnings, prepared) := invocation.prepare host layout tool.name
  warnings.forM warn
  let result : Except Fault Unit ←
    match prepared with
    | .error fault => pure (.error fault)
    | .ok prepared => do
      let live : Live := { layout, station := prepared.station, host := ← IO.mkRef host }
      live.carryOut prepared.plan
  IO.eprint (endText tool result)
  return statusOf result

def usage : String :=
  "usage: TOOL [OPTION]...\ntools: " ++ ", ".intercalate (Tool.all.map Tool.name)

end PackagePower.CommandLine

open PackagePower.CommandLine in
def main (arguments : List String) : IO UInt32 := do
  let named := arguments.head?.bind fun name => Tool.all.find? fun tool => tool.name = name
  match named.bind fun tool => (tool.parse arguments.tail).map fun call => (tool, call) with
  | some (tool, call) => return .ofNat (← call.launch tool)
  | none => do
    IO.eprintln usage
    return .ofNat usageStatus
