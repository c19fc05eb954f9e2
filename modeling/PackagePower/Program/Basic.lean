import PackagePower.Device.Zone

/-!
# Programs over the power limits

A program prints, asks the operator, and reads and writes the copies of the limits, and each
reply decides what comes next. A program is data: the same one is run against real devices,
against cells in a test, or reasoned about for all replies at once.

A text that an output channel does not take in full ends the program; what is then still
logged is fixed when the text is printed. A program that deals with faults still ends with its
process, which is what `Program.mortal` is for. This module does NOT say what any action does.
-/

namespace PackagePower

/-- The two copies of the package power limit: the register of the processor and the one in
the chipset window. -/
inductive RegisterCopy where
  | msr
  | mmio
  deriving DecidableEq

def RegisterCopy.name : RegisterCopy → String
  | .msr => "MSR"
  | .mmio => "MMIO"

/-- A write that has been computed and shown and not yet performed. -/
inductive PendingWrite where
  /-- `next` is to replace `current`. -/
  | register (copy : RegisterCopy) (current next : Word)
  | zone (limits : ZoneLimits)
  deriving DecidableEq

/-- What a program can have done besides printing. -/
inductive Action where
  /-- Shows `label` and waits for a line. -/
  | ask (label : String)
  /-- Puts one write to the operator. -/
  | decide (pending : PendingWrite)
  | read (copy : RegisterCopy)
  | write (copy : RegisterCopy) (value : Word)
  | readZone
  | writeZone (limits : ZoneLimits)
  | warn (text : String)
  deriving DecidableEq

/-- What an action replies. No line means the end of input. -/
abbrev Action.Reply : Action → Type
  | .ask _ => Option String
  | .decide _ => Bool
  | .read _ => Except Fault Word
  | .write _ _ => Except Fault Unit
  | .readZone => Except Fault ZoneLimits
  | .writeZone _ => Except Fault Unit
  | .warn _ => Unit

inductive Channel where
  | out
  | err
  deriving DecidableEq

/-- A program with a result in `α`. -/
inductive Program (α : Type) : Type where
  | done (value : α)
  /-- Prints `text`; should it not fit, logs `lastWords` and ends. -/
  | print (channel : Channel) (text : String) (lastWords : List String) (next : Program α)
  | perform (action : Action) (next : action.Reply → Program α)

namespace Program
variable {α β γ : Type}

protected def bind : Program α → (α → Program β) → Program β
  | .done value, f => f value
  | .print channel text lastWords next, f => .print channel text lastWords (next.bind f)
  | .perform action next, f => .perform action fun reply => (next reply).bind f

instance : Monad Program where
  pure := .done
  bind := Program.bind

@[simp] theorem pure_eq (value : α) : (pure value : Program α) = .done value := rfl

@[simp] theorem done_bind (value : α) (f : α → Program β) : (Program.done value >>= f) = f value :=
  rfl

@[simp] theorem print_bind (channel : Channel) (text : String) (lastWords : List String)
    (next : Program α) (f : α → Program β) :
    (Program.print channel text lastWords next >>= f)
      = .print channel text lastWords (next >>= f) := rfl

@[simp] theorem perform_bind (action : Action) (next : action.Reply → Program α)
    (f : α → Program β) :
    (Program.perform action next >>= f) = .perform action fun reply => next reply >>= f := rfl

theorem bind_done (program : Program α) : (program >>= Program.done) = program := by
  induction program with
  | done => rfl
  | print _ _ _ _ ih => simp [ih]
  | perform _ _ ih => simp [ih]

theorem bind_assoc (program : Program α) (f : α → Program β) (g : β → Program γ) :
    (program >>= f >>= g) = (program >>= fun a => f a >>= g) := by
  induction program with
  | done => rfl
  | print _ _ _ _ ih => simp [ih]
  | perform _ _ ih => simp [ih]

instance : LawfulMonad Program :=
  LawfulMonad.mk' Program bind_done (fun _ _ => rfl) bind_assoc

def act (action : Action) : Program action.Reply := .perform action .done

/-- A line on the output channel, and what to log should it not fit. -/
def sayOrWarn (lastWords : List String) (line : String) : Program Unit :=
  .print .out (line ++ "\n") lastWords (.done ())

def say (line : String) : Program Unit := sayOrWarn [] line

def sayAll (lines : List String) : Program Unit := lines.forM say

def complain (line : String) : Program Unit := .print .err (line ++ "\n") [] (.done ())

end Program

/-- Whether the process ended in place of a result. -/
def processEnded {α : Type} : Except Fault α → Bool
  | .error .noPage => true
  | _ => false

/-- Whether `action` ended the process, so that `reply` never came to the program. -/
def Action.isFatal : (action : Action) → action.Reply → Bool
  | .read _, reply => processEnded reply
  | .write _ _, reply => processEnded reply
  | _, _ => false

/-- A program that a fault can end early. -/
abbrev Attempt (α : Type) : Type := ExceptT Fault Program α

namespace Attempt

def read (copy : RegisterCopy) : Attempt Word := ExceptT.mk (.perform (.read copy) .done)

def write (copy : RegisterCopy) (value : Word) : Attempt Unit :=
  ExceptT.mk (.perform (.write copy value) .done)

def readZone : Attempt ZoneLimits := ExceptT.mk (.perform .readZone .done)

def writeZone (limits : ZoneLimits) : Attempt Unit :=
  ExceptT.mk (.perform (.writeZone limits) .done)

/-- How an attempt ended, for a program that goes on after a fault. -/
def outcome {α : Type} (attempt : Attempt α) : Attempt (Except Fault α) :=
  ExceptT.mk (.ok <$> ExceptT.run attempt)

/-- A result that needs no action, or the fault that took its place. -/
def ofExcept {α : Type} (result : Except Fault α) : Attempt α := ExceptT.mk (.done result)

end Attempt

/-- The program up to the first access that the process does not outlive. -/
def Program.mortal {α : Type} : Program α → Attempt α
  | .done value => ExceptT.mk (.done (.ok value))
  | .print channel text lastWords next => ExceptT.mk (.print channel text lastWords next.mortal)
  | .perform action next => ExceptT.mk <| .perform action fun reply =>
    if action.isFatal reply then .done (.error .noPage) else (next reply).mortal

end PackagePower
