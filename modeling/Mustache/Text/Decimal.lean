import Mustache.Text.Blank

/-! Numbers in decimal notation. -/
namespace Mustache.Text

/-- The decimal digits of a number, without leading zeros. -/
def ofNat (n : Nat) : Text := Nat.toDigits 10 n

example : ofNat 0 = "0".toList := by decide

example : ofNat 120 = "120".toList := by decide

end Mustache.Text
