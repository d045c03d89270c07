/-!
# Decimal numerals

Reading and measuring of decimal numerals.  Numbers are written by `Nat.repr`; `Decimal.width` is
the number of digits that this takes.
-/

namespace LuaCoverage
namespace Decimal

/-- Number of decimal digits of a number, found by dividing until one digit is left. -/
def width (number : Nat) : Nat :=
  if number < 10 then 1 else width (number / 10) + 1

/-- The value of ASCII digits read after a number. -/
def valueFrom (number : Nat) : List Char → Nat
  | [] => number
  | digit :: digits => valueFrom (number * 10 + (digit.toNat - '0'.toNat)) digits

/-- Read an optional plus sign and one or more ASCII digits. -/
def read? (text : List Char) : Option Nat :=
  let digits := match text with
    | '+' :: digits => digits
    | digits => digits
  if digits.isEmpty || !digits.all Char.isDigit then none else some (valueFrom 0 digits)

end Decimal
end LuaCoverage
