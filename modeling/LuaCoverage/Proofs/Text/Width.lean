import LuaCoverage.Text.Decimal
import Mathlib.Algebra.Group.Nat.Defs

/-!
# Widths of numerals

The digits of a word are counted in rounds that cut off one after the other.  The count ends on
every word with the length of its numeral.  This length is pinned by two powers of ten, so larger
words have no shorter numerals, and twenty digits are enough for every word.
-/

namespace LuaCoverage
namespace Decimal

variable {number larger digits counted total : Nat} {word rest : UInt64}

/-! ## Numbers -/

theorem width_of_lt (small : number < 10) : width number = 1 := by
  rw [width, if_pos small]

theorem width_of_le (large : 10 ≤ number) : width number = width (number / 10) + 1 := by
  rw [width, if_neg (Nat.not_lt.mpr large)]

/-- Dividing down to one digit counts the digits. -/
theorem width_eq_length_repr (number : Nat) : width number = number.repr.length := by
  rw [← String.length_toList, Nat.toList_repr]
  fun_induction width number with
  | case1 number small => rw [Nat.toDigits_of_lt_base small, List.length_singleton]
  | case2 number large ih =>
      rw [ih, Nat.toDigits_of_base_le (by decide) (Nat.not_lt.mp large), List.length_append,
        List.length_singleton]

theorem width_pos (number : Nat) : 1 ≤ width number := by
  rw [width_eq_length_repr]
  exact Nat.length_repr_pos

theorem width_le_iff (positive : 1 ≤ digits) : width number ≤ digits ↔ number < 10 ^ digits := by
  rw [width_eq_length_repr, Nat.length_repr_le_iff positive]

theorem lt_width_iff (positive : 1 ≤ digits) : digits < width number ↔ 10 ^ digits ≤ number := by
  rw [← Nat.not_le, width_le_iff positive, Nat.not_lt]

theorem width_mono (le : number ≤ larger) : width number ≤ width larger := by
  have positive := width_pos larger
  have below : larger < 10 ^ width larger := (width_le_iff positive).mp (Nat.le_refl _)
  exact (width_le_iff positive).mpr (Nat.lt_of_le_of_lt le below)

/-- The width is the number of digits that reaches beyond a number and is not one digit too long. -/
theorem eq_width_iff : digits = width number ↔
    1 ≤ digits ∧ number < 10 ^ digits ∧ (digits = 1 ∨ 10 ^ (digits - 1) ≤ number) := by
  constructor
  · rintro rfl
    have positive := width_pos number
    refine ⟨positive, (width_le_iff positive).mp (Nat.le_refl _), ?_⟩
    by_cases single : width number = 1
    · exact .inl single
    · exact .inr ((lt_width_iff (by omega)).mp (by omega))
  · rintro ⟨positive, below, least⟩
    have upper : width number ≤ digits := (width_le_iff positive).mpr below
    by_cases single : digits = 1
    · have lower := width_pos number
      omega
    · have lower : digits - 1 < width number :=
        (lt_width_iff (by omega)).mpr (least.resolve_left single)
      omega

/-! ## Words -/

/-- A count that goes on with the rest of a word and ends with a total.  One digit after the other
is cut off and counted, until one is left that was counted in advance. -/
inductive Counts : (rest : UInt64) → (counted total : Nat) → Prop
  /-- One digit is left. -/
  | last {rest : UInt64} {total : Nat} (small : rest < 10) : Counts rest total total
  /-- The last of several digits is cut off. -/
  | cut {rest : UInt64} {counted total : Nat} (large : 10 ≤ rest)
      (later : Counts (rest / 10) (counted + 1) total) : Counts rest counted total

theorem width_of_word_lt (small : word < 10) : width word.toNat = 1 :=
  width_of_lt (UInt64.lt_iff_toNat_lt.mp small)

theorem width_of_word_le (large : 10 ≤ word) :
    width word.toNat = width (word / 10).toNat + 1 := by
  rw [UInt64.toNat_div]
  exact width_of_le (UInt64.le_iff_toNat_le.mp large)

/-- No round changes how many digits are counted and left. -/
theorem Counts.total_eq (counts : Counts rest counted total) :
    total + 1 = counted + width rest.toNat := by
  induction counts with
  | last small => rw [width_of_word_lt small]
  | cut large later ih =>
      rw [ih, width_of_word_le large]
      omega

/-- A count ends, since every round leaves a numeral that is one digit shorter. -/
theorem Counts.of_width (left : width rest.toNat = digits + 1) (counted : Nat) :
    Counts rest counted (counted + digits) := by
  induction digits generalizing rest counted with
  | zero =>
      have small : rest < 10 := by
        refine UInt64.not_le.mp fun large => ?_
        have positive := width_pos (rest / 10).toNat
        rw [width_of_word_le large] at left
        omega
      exact .last small
  | succ digits ih =>
      have large : 10 ≤ rest := by
        refine UInt64.not_lt.mp fun small => ?_
        rw [width_of_word_lt small] at left
        omega
      rw [width_of_word_le large] at left
      have later := ih (Nat.succ.inj left) (counted + 1)
      rw [Nat.add_right_comm] at later
      exact .cut large later

theorem counts_iff : Counts word 1 total ↔ total = width word.toNat := by
  constructor
  · intro counts
    have := counts.total_eq
    omega
  · rintro rfl
    have positive := width_pos word.toNat
    have counts := Counts.of_width (Nat.sub_add_cancel positive).symm 1
    rwa [Nat.add_sub_cancel' positive] at counts

theorem width_word_le (word : UInt64) : width word.toNat ≤ 20 := by
  have enough : 2 ^ 64 ≤ 10 ^ 20 := by decide
  exact (width_le_iff (by decide)).mpr (Nat.lt_of_lt_of_le word.toNat_lt enough)

/-- Counting the digits of a word ends with its width and with nothing else.  The width is the
length of the numeral, and the only number of digits that reaches beyond the word and is not one
digit too long.  Larger words have no smaller widths, and no width is above twenty. -/
theorem width_counts_digits (word : UInt64) :
    (∀ total, Counts word 1 total ↔ total = width word.toNat) ∧
      width word.toNat = word.toNat.repr.length ∧
      (∀ digits, digits = width word.toNat ↔
        1 ≤ digits ∧ word.toNat < 10 ^ digits ∧ (digits = 1 ∨ 10 ^ (digits - 1) ≤ word.toNat)) ∧
      (∀ larger : UInt64, word ≤ larger → width word.toNat ≤ width larger.toNat) ∧
      width word.toNat ≤ 20 := by
  refine ⟨fun _ => counts_iff, width_eq_length_repr _, fun _ => eq_width_iff, fun larger le => ?_,
    width_word_le word⟩
  exact width_mono (UInt64.le_iff_toNat_le.mp le)

/-- One more takes a word from nineteen digits to twenty. -/
theorem width_counts_digits_carry :
    let word : UInt64 := 9999999999999999999
    let larger : UInt64 := 10000000000000000000
    word ≤ larger ∧ Counts word 1 19 ∧ Counts larger 1 20 ∧
      width word.toNat ≤ width larger.toNat := by
  intro word larger
  have le : word ≤ larger := by decide
  obtain ⟨counts, -, pinned, mono, -⟩ := width_counts_digits word
  obtain ⟨countsLarger, -, pinnedLarger, -, -⟩ := width_counts_digits larger
  refine ⟨le, ?_, ?_, mono larger le⟩
  · exact (counts 19).mpr ((pinned 19).mpr (by decide))
  · exact (countsLarger 20).mpr ((pinnedLarger 20).mpr (by decide))

end Decimal
end LuaCoverage
