import PackagePower.Register.ChipsetWindow
import PackagePower.Register.PowerLimit
import PackagePower.Text.Numeral

/-!
# Faults

A fault is a cause. What is said about it is `Fault.message`, and nothing decides by its
text. Faults of reading what somebody typed count as usage faults and have their own exit
status; every other fault is one of the run.
-/

namespace PackagePower

inductive IoCause where
  | missing
  | badHandle
  | notDirectory
  | isDirectory
  | badOffset
  | notText
  /-- A register that no longer answers. -/
  | refused
  deriving DecidableEq

def IoCause.message : IoCause → String
  | .missing => "No such file or directory (os error 2)"
  | .badHandle => "Bad file descriptor (os error 9)"
  | .notDirectory => "Not a directory (os error 20)"
  | .isDirectory => "Is a directory (os error 21)"
  | .badOffset => "Invalid argument (os error 22)"
  | .notText => "stream did not contain valid UTF-8"
  | .refused => "permission denied"

/-- Why a stretch of a device could not be mapped. -/
inductive MapCause where
  /-- No bytes asked for, or a base inside a page. -/
  | invalid
  /-- A stretch that reaches beyond the largest file offset. -/
  | overflow
  /-- A stretch longer than any free one among the addresses of a process. -/
  | noRoom
  /-- Not a device or file with contents. -/
  | unsupported
  deriving DecidableEq

def MapCause.message : MapCause → String
  | .invalid => "EINVAL: Invalid argument"
  | .overflow => "EOVERFLOW: Value too large for defined data type"
  | .noRoom => "ENOMEM: Out of memory"
  | .unsupported => "ENODEV: No such device"

inductive Transfer where
  | read
  | write
  deriving DecidableEq

def Transfer.name : Transfer → String
  | .read => "read"
  | .write => "write"

/-- Why the chipset window was not found. Paths are as opened. -/
inductive DiscoveryFault where
  | listing (directory : String) (cause : IoCause)
  | noBridge (directory : String)
  | configOpen (path : String) (cause : IoCause)
  | configRead (path : String) (offset : Nat) (cause : IoCause)
  /-- Only `got` of eight bytes were there. -/
  | configShort (path : String) (offset got : Nat)
  | disabled (raw : Word)
  | zeroBase (raw : Word)
  deriving DecidableEq

def DiscoveryFault.message : DiscoveryFault → String
  | .listing directory cause => s!"Failed to list PCI devices in {directory}: {cause.message}"
  | .noBridge directory => s!"Intel host bridge not found in {directory}"
  | .configOpen path cause => s!"Failed to open PCI config {path}: {cause.message}"
  | .configRead path offset cause =>
    s!"Failed to read PCI config {path} at +0x{Text.upperHex 1 offset}: {cause.message}"
  | .configShort path offset got =>
    s!"Short read of PCI config {path} at +0x{Text.upperHex 1 offset} ({Text.decimal got} bytes)"
  | .disabled raw => s!"MCHBAR appears disabled (config 0x48 = {raw.text})"
  | .zeroBase raw => s!"MCHBAR base resolved to 0 (config 0x48 = {raw.text})"

/-- A text that is not what its place calls for. -/
inductive ParseFault where
  /-- No hexadecimal word; `detail` where the length was right. -/
  | hexWord (given : String) (detail : Option Text.NumeralFault)
  | units (given : String)
  | unaligned (given : String)
  | watts (given : String)
  | snapshotMissing (key : String)
  | snapshotInvalid (key value : String)
  | microwatts (given : String)
  | command (arguments : List String)
  | target (answer : String)
  | direction (answer : String)
  /-- A reason stated elsewhere. -/
  | reported (reason : String)
  deriving DecidableEq

def ParseFault.message : ParseFault → String
  | .hexWord given none => s!"bad HEX64 '{given}'"
  | .hexWord given (some detail) => s!"bad HEX64 '{given}': {detail.message}"
  | .units given => s!"invalid units '{given}' (use decimal or 0x hex)"
  | .unaligned given => s!"offset '{given}' is not 8-byte aligned"
  | .watts given => s!"invalid watts '{given}'"
  | .snapshotMissing key => s!"Missing {key} in snapshot"
  | .snapshotInvalid key value => s!"Invalid {key} value '{value}'"
  | .microwatts given => s!"bad microwatt value '{given}'"
  | .command arguments =>
    "expected --read, --write-msr HEX, --write-mmio HEX or --write-powercap UW UW, got '" ++
      " ".intercalate arguments ++ "'"
  | .target answer => s!"invalid target '{answer}'"
  | .direction answer => s!"invalid direction '{answer}'"
  | .reported reason => reason

/-- A device that holds what it should not hold. -/
inductive HardwareFault where
  | powerUnit (raw : Word) (defect : PowerUnit.Defect)
  /-- A constraint file with no number in it. -/
  | constraint (path given : String) (detail : Text.NumeralFault)
  deriving DecidableEq

def HardwareFault.message : HardwareFault → String
  | .powerUnit raw defect =>
    s!"MSR 0x{Text.upperHex 1 PowerUnit.register} = {raw.text}: {defect.message}"
  | .constraint path given detail => s!"{path}: '{given}': {detail.message}"

def transferWidth : Nat := 8

/-- Anything that keeps an operation from its result. -/
inductive Fault where
  | discovery (cause : DiscoveryFault)
  | deviceOpen (path : String) (cause : IoCause)
  | transfer (direction : Transfer) (place : String) (cause : IoCause)
  /-- Fewer than `transferWidth` bytes went through. -/
  | shortTransfer (direction : Transfer) (place : String) (got : Nat)
  | mapping (base : Word) (size : Nat) (cause : MapCause)
  | outOfWindow (offset size : Nat)
  | readOnlyWindow (base : Word)
  | range (cause : RangeError)
  | hardware (cause : HardwareFault)
  | parse (cause : ParseFault)
  /-- An output stream that takes no more. -/
  | brokenStream
  /-- A page of a mapped stretch that memory does not have. The process does not outlive the
  access. -/
  | noPage
  deriving DecidableEq

namespace Fault

def message : Fault → String
  | .discovery cause => s!"MCHBAR discovery failed: {cause.message}"
  | .deviceOpen path cause => s!"Failed to open {path}: {cause.message}"
  | .transfer direction place cause => s!"Failed to {direction.name} {place}: {cause.message}"
  | .shortTransfer direction place got =>
    s!"Short {direction.name} at {place}: {Text.decimal got} of {Text.decimal transferWidth} bytes"
  | .mapping base size cause =>
    s!"Failed to map 0x{Text.upperHex 1 size} bytes at 0x{Text.upperHex 16 base.toNat}: " ++
      cause.message
  | .outOfWindow offset size =>
    s!"MMIO offset 0x{Text.upperHex 1 offset} is misaligned or outside " ++
      s!"the 0x{Text.upperHex 1 size}-byte window"
  | .readOnlyWindow base =>
    s!"MMIO window at 0x{Text.upperHex 16 base.toNat} is mapped read-only"
  | .range cause => s!"Value out of range: {cause.message}"
  | .hardware cause => s!"Invalid hardware state: {cause.message}"
  | .parse cause => s!"Parse error: {cause.message}"
  | .brokenStream => "IO error: broken pipe"
  | .noPage => "Bus error"

/-- The status that a shell reports of a process that signal 7 ended. -/
def busErrorStatus : Nat := 128 + 7

/-- Exit status of a run that ends with this fault. -/
def exitStatus : Fault → Nat
  | .parse _ => 2
  | .noPage => busErrorStatus
  | _ => 1

end Fault

/-- A refused quantity, as a fault of the operation that needed it. -/
def inRange {α : Type} (checked : Except RangeError α) : Except Fault α :=
  checked.mapError .range

end PackagePower
