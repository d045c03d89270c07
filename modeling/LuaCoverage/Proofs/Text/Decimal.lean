import LuaCoverage.Text.Decimal

/-!
# Decimal numerals read back

A numeral as numbers are written consists of digits alone and has the value of the number.
-/

namespace LuaCoverage
namespace Decimal

/-- The value of a numeral of digits alone. -/
def ofDigits? (text : List Char) : Option Nat :=
  if text ≠ [] ∧ text.all Char.isDigit then some (valueFrom 0 text) else none

theorem valueFrom_eq_ofDigitChars (number : Nat) (digits : List Char) :
    valueFrom number digits = Nat.ofDigitChars 10 digits number := by
  induction digits generalizing number with
  | nil => rfl
  | cons digit digits ih =>
      unfold valueFrom
      rw [ih, Nat.ofDigitChars_cons, Nat.mul_comm]

theorem isDigit_of_mem_repr {number : Nat} {character : Char}
    (member : character ∈ number.repr.toList) : character.isDigit := by
  rw [Nat.toList_repr] at member
  exact Nat.isDigit_of_mem_toDigits (by decide) (by decide) member

theorem not_mem_repr {number : Nat} {character : Char} (other : character.isDigit = false) :
    character ∉ number.repr.toList := by
  intro member
  rw [isDigit_of_mem_repr member] at other
  cases other

theorem valueFrom_repr (number : Nat) : valueFrom 0 number.repr.toList = number := by
  rw [valueFrom_eq_ofDigitChars, Nat.toList_repr, Nat.ofDigitChars_ten_toDigits]

theorem repr_ne_nil (number : Nat) : number.repr.toList ≠ [] := by
  rw [Nat.toList_repr]
  exact Nat.toDigits_ne_nil

theorem ofDigits?_repr (number : Nat) : ofDigits? number.repr.toList = some number := by
  have digits : number.repr.toList.all Char.isDigit :=
    List.all_eq_true.mpr fun _ => isDigit_of_mem_repr
  rw [ofDigits?, if_pos ⟨repr_ne_nil number, digits⟩, valueFrom_repr]

end Decimal
end LuaCoverage
