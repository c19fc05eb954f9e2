import PackagePower.Binary64.Fixed

/-!
# The fewest digits that read back

Of the decimal numbers that round to `x`, the text of `x` shows one with the fewest digits,
among those the nearest to `x`, and of two equally near the larger. It is always positional:
no exponent, no point behind a whole number.

The decimals that round to `x` reach half-way to its two neighbours, and include the two ends
exactly when the leading bits of `x` are even. On each decimal grid only the two grid points
around `x` need a test.
-/

namespace PackagePower.Binary64

-- Powers of whole numbers are core's, whatever else is imported.
attribute [local instance (1100)] instPowNat

/-- Ends of the interval that rounds to `steps`, in quarters of a step. -/
def readsBackFrom (steps : Nat) : Nat :=
  let place := 2 ^ scale steps
  if steps = 2 ^ fractionBits * place ∧ 1 < place then 4 * steps - place else 4 * steps - 2 * place

def readsBackUpTo (steps : Nat) : Nat := 4 * steps + 2 * 2 ^ scale steps

def readsBack (steps num den : Nat) : Bool :=
  let x := num * 2 ^ (stepBits + 2)
  if steps / 2 ^ scale steps % 2 = 0 then
    readsBackFrom steps * den ≤ x && x ≤ readsBackUpTo steps * den
  else
    readsBackFrom steps * den < x && x < readsBackUpTo steps * den

/-- A coefficient times a power of ten, as a fraction. -/
def decimalFraction (coefficient : Nat) (exponent : Int) : Nat × Nat :=
  (coefficient * 10 ^ exponent.toNat, 10 ^ (-exponent).toNat)

/-- Number of places before the point of `steps`; not positive for a number below a tenth. -/
def leadingPlace (steps : Nat) : Int :=
  let margin : Nat := 400
  (Nat.toDigits 10 (steps * 10 ^ margin / 2 ^ stepBits)).length - margin

/-- The multiple of `10 ^ exponent` beside `steps` that reads back as it, the nearer of two. -/
def gridPoint? (steps : Nat) (exponent : Int) : Option Nat :=
  let num := steps * 10 ^ (-exponent).toNat
  let den := 2 ^ stepBits * 10 ^ exponent.toNat
  let hits (c : Nat) : Bool :=
    let (a, b) := decimalFraction c exponent
    readsBack steps a b
  let below := num / den
  match hits below, hits (below + 1) with
  | true, true => some (if 2 * (num % den) < den then below else below + 1)
  | true, false => some below
  | false, true => some (below + 1)
  | false, false => none

/-- Coefficient and exponent of the decimal shown for `steps`, at most seventeen digits long. -/
def shortestDecimal (steps : Nat) : Nat × Int :=
  let place := leadingPlace steps
  let found := (List.range 17).findSome? fun (i : Nat) =>
    let exponent : Int := place - (i + 1)
    (gridPoint? steps exponent).map (·, exponent)
  found.getD (0, 0)

/-- A decimal in positional notation, without zeros at the end of its fraction. -/
def positional (coefficient : Nat) (exponent : Int) : String :=
  if 0 ≤ exponent then Text.decimal (coefficient * 10 ^ exponent.toNat)
  else
    let (whole, fraction) := Text.splitPlaces (-exponent).toNat coefficient
    let kept := (fraction.reverse.dropWhile (· = '0')).reverse
    String.ofList (if kept.isEmpty then whole else whole ++ '.' :: kept)

def shortest : Binary64 → String
  | .nan => nanText
  | .infinite negative => signed negative infiniteText
  | .finite negative steps _ =>
    if steps = 0 then signed negative "0"
    else
      let (coefficient, exponent) := shortestDecimal steps
      signed negative (positional coefficient exponent)

end PackagePower.Binary64
