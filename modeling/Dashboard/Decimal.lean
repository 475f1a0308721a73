import Dashboard.Text

/-!
# Integers in decimal

The decimal digits of a number, and the number that digits stand for.
-/

namespace Dashboard.Decimal

def digit (n : Nat) : UInt8 := Text.zeroDigit + n.toUInt8

/-- The digits of a natural number, without leading zeros; zero has one digit. -/
def ofNat (n : Nat) : Text :=
  if n < 10 then [digit n] else ofNat (n / 10) ++ [digit (n % 10)]

/-- The digits of an integer, after a minus sign if it is negative. -/
def ofInt : Int → Text
  | .ofNat n => ofNat n
  | .negSucc n => Text.minusSign :: ofNat (n + 1)

/-- The number that a row of digits stands for; no digits stand for 0. -/
def value (digits : Text) : Nat :=
  digits.foldl (fun n d => 10 * n + (d.toNat - Text.zeroDigit.toNat)) 0

end Dashboard.Decimal
