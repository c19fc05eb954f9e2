import PackagePower.Host.Layout
import PackagePower.Text.Blank

/-!
# Finding the chipset window

The host bridge is the bus function at the customary address if that is one, else the first
by name of those that are. Its configuration space has the base of the window. The function
accepted decides: what is wrong with it is reported, and no other is tried.
-/

namespace PackagePower

/-- A bus function that is a host bridge. -/
structure Bridge where
  path : Path
  vendor : BitVec 32
  deviceClass : BitVec 32

/-- A window as its bridge publishes it. -/
structure PublishedWindow where
  address : Word
  enabled : Bool
  /-- The base register as read. -/
  raw : Word
  /-- The configuration space it was read from. -/
  source : Path

namespace Bridge

def customaryName : String := "0000:00:00.0"

/-- A hexadecimal attribute, with or without a mark in front. -/
def parseAttribute? (text : String) : Option (BitVec 32) :=
  let chars := Text.trimChars text.toList
  match Text.readNumeral 16 UInt32.size ((Text.stripHexMark? chars).getD chars) with
  | .ok n => some (BitVec.ofNat 32 n)
  | .error _ => none

def attribute? (host : Host) (path : Path) : Option (BitVec 32) :=
  (host.readText path.names).toOption.bind parseAttribute?

def vendorFile (path : Path) : Path := path.child "vendor"

def classFile (path : Path) : Path := path.child "class"

def configurationFile (path : Path) : Path := path.child "config"

/-- All files of a bus function that may be looked at. -/
def consulted (path : Path) : List Path :=
  [vendorFile path, classFile path, configurationFile path]

/-- The bus function at `path`, if it is a host bridge. -/
def probe? (host : Host) (path : Path) : Option Bridge := do
  let vendor ← attribute? host (vendorFile path)
  let deviceClass ← attribute? host (classFile path)
  if isHostBridge vendor deviceClass then some { path, vendor, deviceClass } else none

/-- The first name in order. -/
def least? (names : List String) : Option String :=
  names.foldr (fun name rest? =>
    match rest? with
    | none => some name
    | some rest => some (if name ≤ rest then name else rest)) none

/-- The host bridge among the bus functions in `directory`. -/
def find (host : Host) (directory : Path) : Except DiscoveryFault Bridge :=
  match probe? host (directory.child customaryName) with
  | some bridge => .ok bridge
  | none =>
    match host.list directory.names with
    | .error cause => .error (.listing directory.text cause)
    | .ok names =>
      let candidates := names.filter fun name =>
        !name.startsWith "." && (probe? host (directory.child name)).isSome
      match (least? candidates).bind fun name => probe? host (directory.child name) with
      | some bridge => .ok bridge
      | none => .error (.noBridge directory.text)

def configuration (bridge : Bridge) : Path := configurationFile bridge.path

def readConfiguration (bridge : Bridge) (host : Host) (offset : Nat) :
    Except DiscoveryFault Word :=
  let path := bridge.configuration
  match host.openNode path.names .readOnly with
  | .error cause => .error (.configOpen path.text cause)
  | .ok handle =>
    match host.readWord handle offset with
    | .error cause => .error (.configRead path.text offset cause)
    | .ok (.short got) => .error (.configShort path.text offset got)
    | .ok (.complete value) => .ok value

def publishedWindow (bridge : Bridge) (host : Host) : Except DiscoveryFault PublishedWindow := do
  let raw ← bridge.readConfiguration host WindowBase.configOffset
  let base := WindowBase.decode raw
  match base.defect? with
  | some .disabled => .error (.disabled raw)
  | some .zero => .error (.zeroBase raw)
  | none =>
    .ok { address := base.address, enabled := base.enabled, raw, source := bridge.configuration }

end Bridge

def discover (host : Host) (layout : Layout) : Except Fault PublishedWindow :=
  (do (← Bridge.find host layout.busFunctions).publishedWindow host : Except _ _).mapError
    .discovery

end PackagePower
