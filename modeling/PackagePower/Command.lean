import PackagePower.Quantity
import PackagePower.Snapshot

/-!
# Commands of a front end

A front end reads a snapshot or writes one copy or the power zone. Each command stands alone.
-/

namespace PackagePower

inductive Command where
  | read
  | write (copy : RegisterCopy) (value : Word)
  | writeZone (limits : ZoneLimits)
  deriving DecidableEq

inductive CommandReply where
  | snapshot (snapshot : Snapshot)
  | done
  deriving DecidableEq

namespace Command

def parse (arguments : List String) : Except Fault Command :=
  match arguments with
  | ["--read"] => .ok .read
  | ["--write-msr", value] => (Quantity.word value).map (.write .msr)
  | ["--write-mmio", value] => (Quantity.word value).map (.write .mmio)
  | ["--write-powercap", first, second] => do
    let first ← Quantity.microwatts first
    let second ← Quantity.microwatts second
    .ok (.writeZone ⟨first, second⟩)
  | _ => .error (.parse (.command arguments))

def execute (unit : PowerUnit) : Command → Attempt CommandReply
  | .read => .snapshot <$> Snapshot.capture unit
  | .write copy value => do
    Attempt.write copy value
    pure .done
  | .writeZone limits => do
    Attempt.writeZone limits
    pure .done

end Command
end PackagePower
