import PackagePower.Host.Basic

/-!
# Where the devices are

The devices of a machine stand at fixed paths below a device root, which is the root of the
file system unless the environment names another. Besides the root a layout has the processor
whose registers stand for the package, the size of the chipset window and the place of the
power limit in it.
-/

namespace PackagePower

structure Layout where
  root : String
  processor : Nat := 0
  windowSize : Nat := PackagePower.windowSize
  limitOffset : Nat := PackageRegister.powerLimit.offset
  deriving DecidableEq

namespace Layout

def standard : Layout := { root := "/" }

/-- The environment variable that names a device root. -/
def rootVariable : String := "PLCTL_ROOT"

/-- The layout below the root that the environment names, if it names one. -/
def ofEnvironment (root : Option String) : Layout :=
  match root with
  | none | some "" => standard
  | some root => { root }

variable (layout : Layout)

/-- Entries for the functions on the peripheral bus. -/
def busFunctions : Path := ⟨layout.root, ["sys", "bus", "pci", "devices"]⟩

/-- Physical memory, which the chipset window is mapped from. -/
def memory : Path := ⟨layout.root, ["dev", "mem"]⟩

def processors : Path := ⟨layout.root, ["dev", "cpu"]⟩

/-- Registers of the processor that stands for the package. -/
def registerFile : Path := (layout.processors.child (Text.decimal layout.processor)).child "msr"

def zone : Path := ⟨layout.root, ["sys", "class", "powercap", "intel-rapl:0"]⟩

end Layout
end PackagePower
