import PackagePower.Binary64.Basic
import PackagePower.Text.Digits

/-!
# Numbers with a set number of decimal places

The exact value is rounded once, to the nearest multiple of the last place and on a tie to
the even digit. A minus sign stays also where every digit written is zero.
-/

namespace PackagePower.Binary64

-- Powers of whole numbers are core's, whatever else is imported.
attribute [local instance (1100)] instPowNat

/-- `body` behind the sign of a number. -/
def signed (negative : Bool) (body : String) : String := if negative then "-" ++ body else body

def nanText : String := "NaN"

def infiniteText : String := "inf"

/-- Units of the last of `places` decimal places nearest to `steps`. -/
def fixedUnits (places steps : Nat) : Nat := roundEven (steps * 10 ^ places) (2 ^ stepBits)

/-- `x` with `places` digits after the point. -/
def fixed (places : Nat) : Binary64 → String
  | .nan => nanText
  | .infinite negative => signed negative infiniteText
  | .finite negative steps _ =>
    let (whole, fraction) := Text.splitPlaces places (fixedUnits places steps)
    signed negative (String.ofList (whole ++ '.' :: fraction))

end PackagePower.Binary64
