import PackagePower.Device.Bridge
import PackagePower.Device.RegisterFile
import PackagePower.Device.Window
import PackagePower.Device.Zone

/-!
# The devices of one run

A run opens the register file and the window once and addresses the power zone by its
directory. Where the window is was settled before.
-/

namespace PackagePower

structure Devices where
  file : RegisterFile
  window : Window
  zone : Zone
  limitOffset : Nat

namespace Devices

/-- Opens everything, the register file first. -/
def openAll (host : Host) (layout : Layout) (base : Word) (access : Access) :
    Except Fault Devices := do
  let file ← RegisterFile.openFor host layout access
  let window ← Window.map host layout base access
  .ok { file, window, zone := .ofLayout layout, limitOffset := layout.limitOffset }

end Devices

/-- Where the processor's copy of the limit lives. -/
def RegisterFile.limitPlace (file : RegisterFile) : String :=
  s!"MSR 0x{Text.upperHex 1 PowerLimit.register} (CPU {Text.decimal file.processor})"

/-- Where the window's copy of the limit lives. -/
def Window.limitPlace (window : Window) (offset : Nat) : String :=
  s!"MCHBAR {window.base.shortText}+0x{Text.upperHex 1 offset}"

end PackagePower
