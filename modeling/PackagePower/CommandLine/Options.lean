/-!
# Options on a command line

A command line here is options only. A long option may carry one value behind `=`; letters
behind a single dash are flags run together; values follow their option as arguments of their
own, and none of them begins with a dash, except a negative number where the option takes
them. An option has all its values before the next begins. `--` ends the options, and nothing
may follow it.

What a value means is not decided here.
-/

namespace PackagePower.CommandLine

inductive Arity where
  | flag
  /-- So many values, which may be negative numbers. -/
  | values (count : Nat) (negatives : Bool)
  deriving DecidableEq

structure OptionSpec (ι : Type) where
  id : ι
  /-- The name behind two dashes. -/
  long : String
  /-- The letter behind one dash. -/
  short : Option Char := none
  arity : Arity := .flag
  /-- Whether it may be given again, its values adding up. -/
  repeatable : Bool := false

structure Given (ι : Type) where
  id : ι
  values : List String

/-- An option that is still short of values. -/
structure Pending (ι : Type) where
  id : ι
  values : List String
  missing : Nat
  negatives : Bool

inductive Form where
  | endMark
  | long (name : String) (attached : Option String)
  | short (letters : List Char)
  | plain

def Form.ofArgument (argument : String) : Form :=
  match argument.toList with
  | ['-', '-'] => .endMark
  | '-' :: '-' :: rest =>
    match rest.span (· ≠ '=') with
    | (name, []) => .long (String.ofList name) none
    | (name, _ :: value) => .long (String.ofList name) (some (String.ofList value))
  | '-' :: c :: rest => .short (c :: rest)
  | _ => .plain

/-- Digits with at most one point, after the first of them, and at most one `e` or `E` behind
it, neither first nor last. -/
def looksNumeric (chars : List Char) : Bool :=
  let digitsOrPoint (part : List Char) : Bool :=
    part.all (fun c => c.isDigit || c = '.') && part.count '.' ≤ 1 && part.head? ≠ some '.'
  match chars.span fun c => c ≠ 'e' && c ≠ 'E' with
  | (number, []) => digitsOrPoint number
  | (number, _ :: exponent) =>
    !number.isEmpty && digitsOrPoint number && !exponent.isEmpty && exponent.all Char.isDigit

variable {ι : Type}

/-- Whether `argument` can be the next value of an option. -/
def Pending.accepts (pending : Pending ι) (argument : String) : Bool :=
  match Form.ofArgument argument with
  | .plain => true
  | .short letters => pending.negatives && looksNumeric letters
  | _ => false

/-- The flags that letters run together stand for. -/
def flagsOf (specs : List (OptionSpec ι)) (letters : List Char) : Option (List (Given ι)) :=
  letters.mapM fun letter => do
    let spec ← specs.find? fun spec => spec.short = some letter
    if spec.arity = .flag then some { id := spec.id, values := [] } else none

/-- How an option starts: it is complete, or it waits for values. -/
def start (spec : OptionSpec ι) (attached : Option String) : Option (Given ι ⊕ Pending ι) :=
  match spec.arity, attached with
  | .flag, none => some (.inl { id := spec.id, values := [] })
  | .flag, some _ => none
  | .values 1 _, some value => some (.inl { id := spec.id, values := [value] })
  | .values _ _, some _ => none
  | .values count negatives, none =>
    some (.inr { id := spec.id, values := [], missing := count, negatives })

/-- The options of a command line, in order. -/
def read (specs : List (OptionSpec ι)) : Option (Pending ι) → List String →
    Option (List (Given ι))
  | none, [] => some []
  | some _, [] => none
  | some pending, argument :: rest =>
    if pending.accepts argument then
      let values := pending.values ++ [argument]
      if pending.missing ≤ 1 then
        ({ id := pending.id, values } :: ·) <$> read specs none rest
      else read specs (some { pending with values, missing := pending.missing - 1 }) rest
    else none
  | none, argument :: rest =>
    match Form.ofArgument argument with
    | .endMark => if rest.isEmpty then some [] else none
    | .plain => none
    | .short letters => do
      let flags ← flagsOf specs letters
      (flags ++ ·) <$> read specs none rest
    | .long name attached => do
      let spec ← specs.find? fun spec => spec.long = name
      match ← start spec attached with
      | .inl given => (given :: ·) <$> read specs none rest
      | .inr pending => read specs (some pending) rest

variable [DecidableEq ι]

def occurrences (given : List (Given ι)) (id : ι) : Nat :=
  given.countP fun option => option.id = id

def isGiven (given : List (Given ι)) (id : ι) : Bool := occurrences given id ≠ 0

def valuesOf (given : List (Given ι)) (id : ι) : List String :=
  (given.filter fun option => option.id = id).flatMap (·.values)

/-- The options of a command line that gives no option again which may not be. -/
def parse (specs : List (OptionSpec ι)) (arguments : List String) : Option (List (Given ι)) := do
  let given ← read specs none arguments
  if specs.all fun spec => spec.repeatable || occurrences given spec.id ≤ 1 then some given
  else none

/-- The value of an option with one value, as `read` understands it. No option is no value; a
value that is not understood spoils the command line. -/
def valueOf {α ε : Type} (given : List (Given ι)) (id : ι) (read : String → Except ε α) :
    Option (Option α) :=
  match valuesOf given id with
  | [] => some none
  | value :: _ => (read value).toOption.map some

end PackagePower.CommandLine
