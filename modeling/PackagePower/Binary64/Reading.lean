import PackagePower.Binary64.Basic
import PackagePower.Text.Digits

/-!
# Reading a binary64 number

A number is an optional sign and one of: digits with at most one point among them, at least
one digit, and optionally `e` or `E` with a signed whole exponent; or, in any mix of cases,
`inf`, `infinity` or `nan`. No blank is part of a number. The decimal read is rounded once.
-/

namespace PackagePower.Binary64

-- Powers of whole numbers are core's, whatever else is imported.
attribute [local instance (1100)] instPowNat

/-- The number nearest to `coefficient` times a power of ten. -/
def ofDecimal (negative : Bool) (coefficient : Nat) (exponent : Int) : Binary64 :=
  -- A decimal this far out is decided by its leading place alone.
  let place : Int := (Nat.toDigits 10 coefficient).length + exponent
  if coefficient = 0 ∨ place < -400 then .finite negative 0 .zero
  else if 400 < place then .infinite negative
  else ofRatio negative (coefficient * 10 ^ exponent.toNat) (10 ^ (-exponent).toNat)

/-- A sign, and what stands behind it. -/
def splitSign : List Char → Bool × List Char
  | '-' :: rest => (true, rest)
  | '+' :: rest => (false, rest)
  | rest => (false, rest)

def readExponent? (chars : List Char) : Option Int :=
  let (negative, digits) := splitSign chars
  if digits.isEmpty || !digits.all Char.isDigit then none
  else
    let size : Int := Nat.ofDigitChars 10 digits 0
    some (if negative then -size else size)

/-- Exponent part: absent, or a mark and a whole exponent. -/
def readTail? : List Char → Option Int
  | [] => some 0
  | c :: rest => if c = 'e' ∨ c = 'E' then readExponent? rest else none

/-- A point and the digits behind it, and what follows them. -/
def splitFraction : List Char → List Char × List Char
  | '.' :: rest => rest.span Char.isDigit
  | rest => ([], rest)

/-- The number that unsigned `chars` write in digits. -/
def readDecimal? (negative : Bool) (chars : List Char) : Option Binary64 := do
  let (whole, rest) := chars.span Char.isDigit
  let (fraction, tail) := splitFraction rest
  if whole.isEmpty && fraction.isEmpty then none
  else
    let exponent ← readTail? tail
    some (ofDecimal negative (Nat.ofDigitChars 10 (whole ++ fraction) 0)
      (exponent - fraction.length))

/-- The number that unsigned `chars` name in letters. -/
def readName? (negative : Bool) (chars : List Char) : Option Binary64 :=
  let name := String.ofList (chars.map Char.toLower)
  if name = "inf" ∨ name = "infinity" then some (.infinite negative)
  else if name = "nan" then some .nan
  else none

def ofText? (text : String) : Option Binary64 :=
  let (negative, chars) := splitSign text.toList
  readDecimal? negative chars <|> readName? negative chars

end PackagePower.Binary64
