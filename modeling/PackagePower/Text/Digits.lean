/-!
# Digits of a number in a base

Writing uses core's `Nat.toDigits`, whose digits above nine are lower-case letters. Reading
takes one character at a time through `digit?`, which accepts both cases and ASCII only.
-/

namespace PackagePower.Text

/-- What `c` counts for as a digit of `base`, if it is one. -/
def digit? (base : Nat) (c : Char) : Option Nat :=
  let value? :=
    if '0' ≤ c ∧ c ≤ '9' then some (c.toNat - '0'.toNat)
    else if 'a' ≤ c ∧ c ≤ 'z' then some (c.toNat - 'a'.toNat + 10)
    else if 'A' ≤ c ∧ c ≤ 'Z' then some (c.toNat - 'A'.toNat + 10)
    else none
  value?.filter (· < base)

theorem digit?_lt {base : Nat} {c : Char} {value : Nat} (h : digit? base c = some value) :
    value < base := by
  have := (Option.filter_eq_some_iff.1 h).2
  simpa using this

/-- `digits` behind as many zeros as `width` asks for. -/
def zeroPad (width : Nat) (digits : List Char) : List Char :=
  List.replicate (width - digits.length) '0' ++ digits

theorem length_zeroPad (width : Nat) (digits : List Char) :
    (zeroPad width digits).length = max width digits.length := by
  simp [zeroPad]; omega

/-- `n` in base sixteen, at least `width` lower-case digits. -/
def lowerHex (width n : Nat) : String := String.ofList (zeroPad width (Nat.toDigits 16 n))

def upperHex (width n : Nat) : String :=
  String.ofList ((zeroPad width (Nat.toDigits 16 n)).map Char.toUpper)

def decimal (n : Nat) : String := String.ofList (Nat.toDigits 10 n)

/-- `n` counted in units of the last of `places` decimal places: whole part and fraction. -/
def splitPlaces (places n : Nat) : List Char × List Char :=
  let digits := zeroPad (places + 1) (Nat.toDigits 10 n)
  digits.splitAt (digits.length - places)

theorem splitPlaces_append (places n : Nat) :
    (splitPlaces places n).1 ++ (splitPlaces places n).2
      = zeroPad (places + 1) (Nat.toDigits 10 n) := by
  simp [splitPlaces, List.splitAt_eq]

theorem length_splitPlaces_snd (places n : Nat) : (splitPlaces places n).2.length = places := by
  have := length_zeroPad (places + 1) (Nat.toDigits 10 n)
  simp only [splitPlaces, List.splitAt_eq, List.length_drop]
  omega

end PackagePower.Text
