import PackagePower.Program.Station
import PackagePower.Session.Step

/-!
# Terminals

A terminal's input is bytes, taken a line at a time by prompts and decisions alike. A line
that is not UTF-8 counts as the end of input, but what follows it can still be read. What a
terminal shows is what was printed, between the prompts and questions put to the operator.
-/

namespace PackagePower.CommandLine

structure Terminal where
  input : List UInt8

namespace Terminal

def lineEnd : UInt8 := 0x0A

/-- The bytes of the first line with its end, and the rest. -/
def splitLine : List UInt8 → List UInt8 × List UInt8
  | [] => ([], [])
  | byte :: rest =>
    if byte = lineEnd then ([byte], rest)
    else
      let (line, others) := splitLine rest
      (byte :: line, others)

/-- A line without the ends of line behind it. -/
def chomp (line : String) : String :=
  String.ofList ((line.toList.reverse.dropWhile fun c => c = '\n' || c = '\r').reverse)

def readLine (terminal : Terminal) : Option String × Terminal :=
  match terminal.input with
  | [] => (none, terminal)
  | input =>
    let (line, rest) := splitLine input
    ((String.fromUTF8? ⟨line.toArray⟩).map chomp, { input := rest })

/-- Lines that the input has at most. -/
def lineCount (terminal : Terminal) : Nat := terminal.input.count lineEnd + 1

def isYes (answer : String) : Bool :=
  match Text.trimChars answer.toList with
  | c :: _ => c = 'y' || c = 'Y'
  | [] => false

def questionLabel (pending : PendingWrite) : String := pending.question ++ " [y/N]: "

def operator : Operator Terminal where
  line _ terminal := terminal.readLine
  decide _ terminal :=
    let (answer, rest) := terminal.readLine
    ((answer.map isYes).getD false, rest)

end Terminal

/-- What an event shows on the output of a terminal. -/
def shownText : Event → String
  | .printed .out text => text
  | .performed (.ask label) _ => label
  | .performed (.decide pending) _ => Terminal.questionLabel pending
  | _ => ""

/-- What an event shows on the error output. -/
def complaint : Event → String
  | .printed .err text => text
  | _ => ""

def warning? : Event → Option String
  | .performed (.warn text) _ => some text
  | _ => none

end PackagePower.CommandLine
