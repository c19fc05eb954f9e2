import PackagePower.Text.Numeral

/-!
# Menus

The items of a menu are numbered and labelled. An answer picks the item whose number it
writes, whatever zeros or plus sign stand in front.
-/

namespace PackagePower

/-- A type whose members are the items of a menu. -/
class Menu (α : Type) where
  /-- In the order shown. -/
  all : List α
  number : α → Nat
  label : α → String

namespace Menu
variable {α : Type} [Menu α]

def entry (item : α) : String := s!"{Text.decimal (number item)}) {label item}"

def line (α : Type) [Menu α] : String := "  ".intercalate ((all : List α).map entry)

def ofNumber? (n : Nat) : Option α := all.find? fun item => number item = n

def pick? (answer : String) : Option α :=
  (Text.readNumeral 10 UInt32.size answer.toList).toOption.bind ofNumber?

end Menu

inductive SessionChoice where
  | showStatus
  | setLimits
  | syncLimits
  | exit
  deriving DecidableEq

instance : Menu SessionChoice where
  all := [.showStatus, .setLimits, .syncLimits, .exit]
  number
    | .showStatus => 1
    | .setLimits => 2
    | .syncLimits => 3
    | .exit => 4
  label
    | .showStatus => "Show current limits"
    | .setLimits => "Set PL1/PL2 (watts)"
    | .syncLimits => "Sync MSR and MMIO"
    | .exit => "Exit"

/-- Which copies new limits are for. -/
inductive WriteTarget where
  | msr
  | mmio
  | both
  deriving DecidableEq

instance : Menu WriteTarget where
  all := [.msr, .mmio, .both]
  number
    | .msr => 1
    | .mmio => 2
    | .both => 3
  label
    | .msr => "MSR"
    | .mmio => "MMIO"
    | .both => "Both"

/-- Which copy is to be made like the other. -/
inductive SyncDirection where
  | msrToMmio
  | mmioToMsr
  deriving DecidableEq

instance : Menu SyncDirection where
  all := [.msrToMmio, .mmioToMsr]
  number
    | .msrToMmio => 1
    | .mmioToMsr => 2
  label
    | .msrToMmio => "MSR -> MMIO"
    | .mmioToMsr => "MMIO -> MSR"

end PackagePower
