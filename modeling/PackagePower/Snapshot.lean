import PackagePower.Program.Basic
import PackagePower.Report

/-!
# Snapshots

A snapshot is what a front end needs to show and edit the limits: the unit in use and both
copies of the register. It is written as one `KEY=VALUE` line for each field and read back
from lines in any order. Lines without `=`, unknown keys and blanks around keys and values do
not matter, and of several lines with one key the last counts.
-/

namespace PackagePower

structure Snapshot where
  exponent : BitVec 8
  wattsPerUnit : Binary64
  msr : Word
  mmio : Word
  deriving DecidableEq

namespace Snapshot

def capture (unit : PowerUnit) : Attempt Snapshot := do
  let msr ← Attempt.read .msr
  let mmio ← Attempt.read .mmio
  pure { exponent := unit.power, wattsPerUnit := unit.wattsPerUnit, msr, mmio }

def exponentKey : String := "POWER_UNIT"

def wattsKey : String := "UNIT_WATTS"

def msrKey : String := "MSR"

def mmioKey : String := "MMIO"

def lines (snapshot : Snapshot) : List String :=
  [s!"{exponentKey}={Text.decimal snapshot.exponent.toNat}",
    s!"{wattsKey}={snapshot.wattsPerUnit.fixed 9}",
    s!"{msrKey}={snapshot.msr.text}",
    s!"{mmioKey}={snapshot.mmio.text}"]

def render (snapshot : Snapshot) : String := joinLines snapshot.lines

def splitLines : List Char → List (List Char)
  | [] => [[]]
  | '\n' :: rest => [] :: splitLines rest
  | c :: rest =>
    match splitLines rest with
    | line :: others => (c :: line) :: others
    | [] => [[c]]

/-- Key and value of a line, without the blanks around them. -/
def entry? (line : List Char) : Option (List Char × List Char) :=
  match line.span (· ≠ '=') with
  | (_, []) => none
  | (key, _ :: value) => some (Text.trimChars key, Text.trimChars value)

def valueOf (entries : List (List Char × List Char)) (key : String) : Except Fault (List Char) :=
  match entries.reverse.find? fun entry => entry.1 = key.toList with
  | some entry => .ok entry.2
  | none => .error (.parse (.snapshotMissing key))

/-- A register value: decimal, or hexadecimal behind a mark. -/
def readWord? (chars : List Char) : Option Word :=
  let read :=
    match Text.stripHexMark? chars with
    | some digits => Text.readNumeral 16 UInt64.size digits
    | none => Text.readNumeral 10 UInt64.size chars
  read.toOption.map (BitVec.ofNat 64 ·)

def readExponent? (chars : List Char) : Option (BitVec 8) :=
  (Text.readNumeral 10 UInt8.size chars).toOption.map (BitVec.ofNat 8 ·)

def readWatts? (chars : List Char) : Option Binary64 := Binary64.ofText? (String.ofList chars)

/-- The value of `key` as `read` understands it. -/
def field {α : Type} (entries : List (List Char × List Char)) (key : String)
    (read : List Char → Option α) : Except Fault α := do
  let value ← valueOf entries key
  match read value with
  | some result => .ok result
  | none => .error (.parse (.snapshotInvalid key (String.ofList value)))

def parse (text : String) : Except Fault Snapshot := do
  let entries := (splitLines text.toList).filterMap entry?
  let exponent ← field entries exponentKey readExponent?
  let wattsPerUnit ← field entries wattsKey readWatts?
  let msr ← field entries msrKey readWord?
  let mmio ← field entries mmioKey readWord?
  .ok { exponent, wattsPerUnit, msr, mmio }

end Snapshot
end PackagePower
