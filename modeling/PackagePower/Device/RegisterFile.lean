import PackagePower.Host.Layout

/-!
# Registers of a processor

A register file has eight bytes at the position of each register's number. A transfer is
whole or a fault. A write past the end makes the file longer.
-/

namespace PackagePower

structure RegisterFile where
  path : Path
  handle : Handle
  processor : Nat
  access : Access

namespace RegisterFile

/-- Opens the register file of the processor that stands for the package. -/
def openFor (host : Host) (layout : Layout) (access : Access) : Except Fault RegisterFile :=
  let path := layout.registerFile
  match host.openNode path.names access with
  | .error cause => .error (.deviceOpen path.text cause)
  | .ok handle => .ok { path, handle, processor := layout.processor, access }

variable (file : RegisterFile) (host : Host)

def place (number : Nat) : String :=
  s!"MSR 0x{Text.upperHex 1 number} on CPU {Text.decimal file.processor}"

def read (number : Nat) : Except Fault Word :=
  match host.readWord file.handle number with
  | .error cause => .error (.transfer .read (file.place number) cause)
  | .ok (.short got) => .error (.shortTransfer .read (file.place number) got)
  | .ok (.complete value) => .ok value

/-- The file that a write to register `number` goes to, or what keeps it from happening. -/
def writable (number : Nat) : Except IoCause FileId :=
  if Host.positionBound ≤ number then .error .badOffset
  else if file.access = .readOnly then .error .badHandle
  else if Host.positionBound ≤ number + 8 then .error .badOffset
  else
    match file.handle with
    | .file id => .ok id
    | .directory => .error .isDirectory

def write (number : Nat) (value : Word) : Except Fault Host :=
  match file.writable number with
  | .error cause => .error (.transfer .write (file.place number) cause)
  | .ok id => .ok (host.update id fun contents => contents.write number value)

/-- The units in use, from the unit register. -/
def powerUnit : Except Fault PowerUnit := do
  let raw ← file.read host PowerUnit.register
  let unit := PowerUnit.decode raw
  match unit.defect? with
  | some defect => .error (.hardware (.powerUnit raw defect))
  | none => .ok unit

end RegisterFile
end PackagePower
