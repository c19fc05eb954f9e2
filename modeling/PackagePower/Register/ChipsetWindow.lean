import PackagePower.Register.Word

/-!
# The chipset register window

The host bridge publishes the physical base of a window of chipset registers, and the window
holds a second copy of the package power limit. The base register has the enable bit at its
bottom and a base address whose low twelve bits are zero.
-/

namespace PackagePower

structure WindowBase where
  enabled : Bool
  address : Word
  deriving DecidableEq

inductive WindowBase.Defect where
  | disabled
  | zero
  deriving DecidableEq

def WindowBase.Defect.message : WindowBase.Defect → String
  | .disabled => "MCHBAR decode is disabled"
  | .zero => "MCHBAR base address is zero"

namespace WindowBase

/-- The bits of the base address. -/
def addressBits : Word := ~~~0xFFF#64

def decode (value : Word) : WindowBase where
  enabled := value.getLsbD 0
  address := value &&& addressBits

def encode (base : WindowBase) : Word :=
  (base.address &&& addressBits) ||| Word.placeBit 0 base.enabled

def defect? (base : WindowBase) : Option Defect :=
  if !base.enabled then some .disabled
  else if base.address = 0 then some .zero
  else none

/-- Where the bridge's configuration space holds the base register. -/
def configOffset : Nat := 0x48

end WindowBase

/-- Whether vendor and class identify the host bridge: the right vendor, and a bridge of the
host kind whatever its programming interface. -/
def isHostBridge (vendor deviceClass : BitVec 32) : Bool :=
  vendor = 0x8086#32 && deviceClass &&& 0xFFFF00#32 = 0x060000#32

/-- Bytes of the window that are mapped, unless a layout says otherwise. -/
def windowSize : Nat := 2 * 1024 * 1024

/-- The package registers commonly found in the window. Their places move between chipset
generations, so a name is a hint. -/
inductive PackageRegister where
  | powerLimit
  | energyStatus
  | powerInfo
  | perfStatus
  deriving DecidableEq

namespace PackageRegister

def all : List PackageRegister := [.powerLimit, .energyStatus, .powerInfo, .perfStatus]

def name : PackageRegister → String
  | .powerLimit => "PKG_POWER_LIMIT"
  | .energyStatus => "PKG_ENERGY_STATUS"
  | .powerInfo => "PKG_POWER_INFO"
  | .perfStatus => "PKG_PERF_STATUS"

def offset : PackageRegister → Nat
  | .powerLimit => 0x59A0
  | .energyStatus => 0x59B0
  | .powerInfo => 0x59C0
  | .perfStatus => 0x59E0

end PackageRegister
end PackagePower
