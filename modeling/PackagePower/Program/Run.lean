import PackagePower.Program.Basic

/-!
# Running programs

A handler answers actions out of a world of its own. A run threads that world, the two output
channels and a record of what happened, the latest first.

A channel has room for all text or for so many bytes. Text that does not fit leaves what fits
of it behind and ends the run.
-/

namespace PackagePower

/-- An output channel: the bytes it still takes, if they are numbered, and those it has. -/
structure Sink where
  room : Option Nat := none
  kept : List UInt8 := []

namespace Sink

def bytes (text : String) : List UInt8 := text.toUTF8.data.toList

def fits (sink : Sink) (text : String) : Bool :=
  match sink.room with
  | none => true
  | some room => (bytes text).length ≤ room

/-- The channel after being handed `text`. -/
def write (sink : Sink) (text : String) : Sink :=
  match sink.room with
  | none => { sink with kept := sink.kept ++ bytes text }
  | some room =>
    { room := some (room - (bytes text).length), kept := sink.kept ++ (bytes text).take room }

end Sink

inductive Event where
  /-- A text that its channel took in full. -/
  | printed (channel : Channel) (text : String)
  | performed (action : Action) (reply : action.Reply)

/-- How a world of kind `σ` answers. -/
structure Handler (σ : Type) where
  answer : (action : Action) → σ → action.Reply × σ

structure Run (σ : Type) where
  world : σ
  out : Sink := {}
  err : Sink := {}
  /-- The latest first. -/
  events : List Event := []

namespace Run
variable {σ : Type}

def sink (run : Run σ) : Channel → Sink
  | .out => run.out
  | .err => run.err

/-- The run after `channel` was handed `text`. -/
def handed (run : Run σ) (channel : Channel) (text : String) : Run σ :=
  match channel with
  | .out => { run with out := run.out.write text }
  | .err => { run with err := run.err.write text }

def record (run : Run σ) (event : Event) : Run σ := { run with events := event :: run.events }

/-- The run after `action`, and its reply. -/
def performed (run : Run σ) (handler : Handler σ) (action : Action) : action.Reply × Run σ :=
  let (reply, world) := handler.answer action run.world
  (reply, { run with world }.record (.performed action reply))

def warned (run : Run σ) (handler : Handler σ) (lastWords : List String) : Run σ :=
  lastWords.foldl (fun run text => (run.performed handler (.warn text)).2) run

def history (run : Run σ) : List Event := run.events.reverse

end Run

/-- Runs a program; no result means that a channel did not take a text. -/
def Program.run {σ α : Type} (handler : Handler σ) : Program α → Run σ → Option α × Run σ
  | .done value, run => (some value, run)
  | .print channel text lastWords next, run =>
    if (run.sink channel).fits text then
      next.run handler ((run.handed channel text).record (.printed channel text))
    else (none, (run.handed channel text).warned handler lastWords)
  | .perform action next, run =>
    let (reply, run) := run.performed handler action
    (next reply).run handler run

theorem Program.run_bind {σ α β : Type} (handler : Handler σ) (program : Program α)
    (f : α → Program β) (run : Run σ) :
    (program >>= f).run handler run =
      match program.run handler run with
      | (some value, after) => (f value).run handler after
      | (none, after) => (none, after) := by
  induction program generalizing run with
  | done value => rfl
  | print channel text lastWords next ih =>
    simp only [Program.print_bind, Program.run]
    split
    · exact ih _
    · rfl
  | perform action next ih => exact ih _ _

/-- Runs an attempt; a channel that did not take a text counts as a fault. -/
def Attempt.run {σ α : Type} (handler : Handler σ) (attempt : Attempt α) (run : Run σ) :
    Except Fault α × Run σ :=
  match Program.run handler (ExceptT.run attempt) run with
  | (some result, after) => (result, after)
  | (none, after) => (.error .brokenStream, after)

end PackagePower
