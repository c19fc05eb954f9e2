import PackagePower.Proofs.OneShot
import PackagePower.Proofs.Text.Hexadecimal

/-!
# What is told before a write

The lines that come before a write, letter by letter. A word is shown with all of its sixteen
digits, a half of it with eight, and a count with as many capitals as it needs.
-/

namespace PackagePower

-- Powers of whole numbers are core's, whatever else is imported.
attribute [local instance (1100)] instPowNat

namespace OneShot

/-! ## Lines -/

/-- The lines that say what was found and what restores it. -/
def restoreLines (place command : String) (found : Word) : List String :=
  ["ORIG  [" ++ place ++ "] = " ++ found.shown, "Restore command:",
    "  sudo " ++ command ++ " --restore " ++ found.shown]

/-- The lines that say what is going to be written. -/
def targetLines (unit : PowerUnit) : OneShot → Word → List String
  | .set watts₁ watts₂, target =>
    ["SET  PL1=" ++ watts₁.shortest ++ "W (0x" ++ capitals (target.toNat % 0x8000) ++
        ")  PL2=" ++ watts₂.shortest ++ "W (0x" ++ capitals (target.toNat / 0x100000000 % 0x8000) ++
        ") at " ++ unit.wattsPerUnit.shortest ++ " W/unit",
      "NEW  lo32=0x" ++ String.ofList (hexDigits 8 (target.toNat % 0x100000000)) ++
        " hi32=0x" ++ String.ofList (hexDigits 8 (target.toNat / 0x100000000))]
  | .restore _, target => ["RESTORE target = " ++ target.shown]

/-- The line that says what is there in the end. -/
def afterLine (place : String) (after : Word) : String :=
  "AFTER [" ++ place ++ "] = " ++ after.shown

theorem heading_eq_lines (place command : String) (found : Word) :
    heading place command found = restoreLines place command found := by
  unfold heading restoreLines
  rw [found.text_eq_shown]
  rfl

theorem announcement_eq_lines (order : OneShot) (unit : PowerUnit) (target : Word) :
    order.announcement target unit = order.targetLines unit target := by
  cases order with
  | set watts₁ watts₂ =>
    have half (part : BitVec 32) :
        Text.lowerHex 8 part.toNat = String.ofList (hexDigits 8 part.toNat) :=
      Text.lowerHex_eq (by decide) part.isLt
    have low : Text.lowerHex 8 target.low.toNat =
        String.ofList (hexDigits 8 (target.toNat % 2 ^ 32)) := by
      rw [half]
      simp [Word.low]
    have high : Text.lowerHex 8 target.high.toNat =
        String.ofList (hexDigits 8 (target.toNat / 2 ^ 32)) := by
      have below : target.toNat / 2 ^ 32 < 2 ^ 32 := by
        have := target.isLt
        omega
      rw [half, Word.high, BitVec.extractLsb'_toNat, Nat.shiftRight_eq_div_pow,
        Nat.mod_eq_of_lt below]
    have between : ")  PL2=" = ")  " ++ "PL2=" := by decide
    have behind : ") at " = ") " ++ "at " := by decide
    unfold announcement targetLines Word.limitCounts
    rw [low, high]
    simp only [Text.upperHex_eq_capitals, BitVec.extractLsb'_toNat, Nat.shiftRight_eq_div_pow,
      Nat.pow_zero, Nat.div_one, between, behind, String.append_assoc]
    rfl
  | restore value =>
    unfold announcement targetLines
    rw [target.text_eq_shown]
    rfl

theorem afterLine_eq (place : String) (after : Word) :
    s!"AFTER [{place}] = {after.text}" = afterLine place after := by
  unfold afterLine
  rw [after.text_eq_shown]
  rfl

end OneShot
end PackagePower
