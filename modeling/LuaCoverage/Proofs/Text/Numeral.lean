import LuaCoverage.Proofs.Text.Decimal
import Mathlib.Data.Nat.Digits.Defs
import Mathlib.Tactic.Ring

/-!
# Numerals

A numeral is an optional plus sign and one or more ASCII digits.  It is described by the codes of
its marks, so that one description serves characters and octets.  Reading accepts exactly the
numerals, each with the value of its digits.
-/

namespace LuaCoverage
namespace Decimal

/-- One or more codes of ASCII digits. -/
def AreDigits (codes : List Nat) : Prop :=
  codes ≠ [] ∧ ∀ code ∈ codes, 0x30 ≤ code ∧ code ≤ 0x39

instance (codes : List Nat) : Decidable (AreDigits codes) :=
  inferInstanceAs (Decidable (_ ∧ _))

/-- The value of codes of ASCII digits, the most significant first. -/
def valueOfCodes (codes : List Nat) : Nat :=
  Nat.ofDigits 10 (codes.map (· - 0x30)).reverse

/-- Codes that spell a number. -/
inductive IsNumeral : List Nat → Nat → Prop
  /-- Digits alone. -/
  | plain {codes : List Nat} (digits : AreDigits codes) : IsNumeral codes (valueOfCodes codes)
  /-- Digits after a plus sign. -/
  | signed {codes : List Nat} (digits : AreDigits codes) :
      IsNumeral (0x2B :: codes) (valueOfCodes codes)

namespace IsNumeral

variable {codes : List Nat} {number : Nat}

/-- Every mark of a numeral is a plus sign or a digit. -/
theorem code_mem (numeral : IsNumeral codes number) {code : Nat} (member : code ∈ codes) :
    code = 0x2B ∨ 0x30 ≤ code ∧ code ≤ 0x39 := by
  cases numeral with
  | plain digits => exact Or.inr (digits.2 code member)
  | signed digits =>
      rcases List.mem_cons.mp member with first | later
      · exact Or.inl first
      · exact Or.inr (digits.2 code later)

end IsNumeral

theorem isDigit_iff (character : Char) :
    character.isDigit ↔ 0x30 ≤ character.toNat ∧ character.toNat ≤ 0x39 := by
  simp only [Char.isDigit, Bool.and_eq_true, decide_eq_true_eq, ge_iff_le, UInt32.le_iff_toNat_le]
  rfl

theorem areDigits_map_toNat_iff (text : List Char) :
    AreDigits (text.map Char.toNat) ↔ text ≠ [] ∧ text.all Char.isDigit := by
  simp [AreDigits, isDigit_iff]

theorem ofDigitChars_eq_valueOfCodes (number : Nat) (text : List Char) :
    Nat.ofDigitChars 10 text number =
      number * 10 ^ text.length + valueOfCodes (text.map Char.toNat) := by
  induction text generalizing number with
  | nil => simp [valueOfCodes]
  | cons digit digits ih =>
      rw [Nat.ofDigitChars_cons, ih]
      simp only [valueOfCodes, List.map_cons, List.reverse_cons, Nat.ofDigits_append,
        Nat.ofDigits_singleton, List.length_reverse, List.length_map, List.length_cons]
      rw [show '0'.toNat = 0x30 from rfl]
      ring

theorem ofDigits?_eq_some_iff {text : List Char} {number : Nat} :
    ofDigits? text = some number ↔
      AreDigits (text.map Char.toNat) ∧ number = valueOfCodes (text.map Char.toNat) := by
  rw [areDigits_map_toNat_iff, ofDigits?]
  split
  · next digits =>
      rw [valueFrom_eq_ofDigitChars, ofDigitChars_eq_valueOfCodes, Nat.zero_mul, Nat.zero_add,
        Option.some_inj, eq_comm]
      exact (and_iff_right digits).symm
  · next other => exact iff_of_false (Option.some_ne_none _).symm fun found => other found.1

theorem ite_isEmpty_eq_ofDigits? (digits : List Char) :
    (if digits.isEmpty || !digits.all Char.isDigit then none else some (valueFrom 0 digits)) =
      ofDigits? digits := by
  rw [ofDigits?]
  by_cases valid : digits ≠ [] ∧ digits.all Char.isDigit
  · rw [if_pos valid, if_neg (by simpa [List.isEmpty_iff] using valid)]
  · rw [if_neg valid, if_pos]
    by_contra other
    exact valid (by simpa [List.isEmpty_iff] using other)

theorem read?_plus (digits : List Char) : read? ('+' :: digits) = ofDigits? digits :=
  ite_isEmpty_eq_ofDigits? digits

theorem read?_of_head?_ne {text : List Char} (unsigned : text.head? ≠ some '+') :
    read? text = ofDigits? text := by
  unfold read?
  split
  · exact absurd rfl unsigned
  · exact ite_isEmpty_eq_ofDigits? text

/-- Reading accepts exactly the numerals. -/
theorem read?_eq_some_iff {text : List Char} {number : Nat} :
    read? text = some number ↔ IsNumeral (text.map Char.toNat) number := by
  constructor
  · intro found
    by_cases signed : text.head? = some '+'
    · obtain ⟨digits, rfl⟩ := List.head?_eq_some_iff.mp signed
      rw [read?_plus, ofDigits?_eq_some_iff] at found
      obtain ⟨digits, rfl⟩ := found
      exact .signed digits
    · rw [read?_of_head?_ne signed, ofDigits?_eq_some_iff] at found
      obtain ⟨digits, rfl⟩ := found
      exact .plain digits
  · intro numeral
    generalize marks : text.map Char.toNat = codes at numeral
    cases numeral with
    | plain digits =>
        have unsigned : text.head? ≠ some '+' := by
          intro signed
          obtain ⟨rest, rfl⟩ := List.head?_eq_some_iff.mp signed
          exact absurd (digits.2 0x2B (marks ▸ List.mem_cons_self ..)).1 (by decide)
        rw [read?_of_head?_ne unsigned, ofDigits?_eq_some_iff, marks]
        exact ⟨digits, rfl⟩
    | signed digits =>
        obtain ⟨mark, rest, rfl, plus, rfl⟩ := List.map_eq_cons_iff.mp marks
        obtain rfl : mark = '+' := Char.toNat_inj.mp plus
        rw [read?_plus, ofDigits?_eq_some_iff]
        exact ⟨digits, rfl⟩

end Decimal
end LuaCoverage
