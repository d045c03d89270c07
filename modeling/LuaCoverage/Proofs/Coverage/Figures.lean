import LuaCoverage.Coverage.Figures
import LuaCoverage.Proofs.Coverage.Growth
import Mathlib.Data.List.Perm.Subperm

/-!
# Figures of growing files

Covered lines are some of the statement lines, of which there are no more than numbers of lines, so
that a percentage never exceeds one hundred and nothing of it is lost.  With more hits neither the
covered lines nor the percentage decrease.
-/

namespace LuaCoverage

namespace StatementLines

variable (statements : StatementLines)

theorem length_numbers : statements.numbers.length = statements.size := by
  rw [numbers, List.length_map, Std.TreeSet.length_toList]

theorem ascending_numbers : statements.numbers.Pairwise (· < ·) := by
  rw [numbers, List.pairwise_map]
  have ordered := statements.ordered_toList
  exact ordered.imp fun lower => UInt32.lt_iff_toNat_lt.mp (Std.compare_eq_lt.mp lower)

/-- Every statement line stands once. -/
theorem nodup_numbers : statements.numbers.Nodup :=
  statements.ascending_numbers.imp Nat.ne_of_lt

variable {statements}

theorem mem_numbers {line : Nat} :
    line ∈ statements.numbers ↔ ∃ statement ∈ statements, statement.toNat = line := by
  simp only [numbers, List.mem_map, Std.TreeSet.mem_toList]

variable (statements)

/-- There are no more statement lines than numbers of lines. -/
theorem length_numbers_le : statements.numbers.length ≤ UInt32.size := by
  have inside : statements.numbers ⊆ List.range UInt32.size := by
    intro line listed
    obtain ⟨statement, -, rfl⟩ := mem_numbers.mp listed
    exact List.mem_range.mpr statement.toNat_lt
  calc statements.numbers.length
      ≤ (List.range UInt32.size).length := (statements.nodup_numbers.subperm inside).length_le
    _ = UInt32.size := List.length_range

end StatementLines

namespace Figures

variable (file : FileHits) (statements : StatementLines)

theorem covered_ofFile :
    (ofFile file statements).covered.toNat = statements.numbers.countP file.lines.contains := by
  have counted : statements.numbers.countP file.lines.contains ≤ statements.numbers.length :=
    List.countP_le_length
  have fits := Nat.le_trans counted statements.length_numbers_le
  rw [ofFile, ← List.countP_eq_length_filter]
  exact UInt64.toNat_ofNat_of_lt' (Nat.lt_of_le_of_lt fits (by decide))

theorem executable_ofFile :
    (ofFile file statements).executable.toNat = statements.numbers.length := by
  have fits := statements.length_numbers_le
  rw [ofFile, ← statements.length_numbers]
  exact UInt64.toNat_ofNat_of_lt' (Nat.lt_of_le_of_lt fits (by decide))

theorem executable_le_size : (ofFile file statements).executable.toNat ≤ UInt32.size := by
  rw [executable_ofFile]
  exact statements.length_numbers_le

theorem covered_le_executable :
    (ofFile file statements).covered ≤ (ofFile file statements).executable := by
  rw [UInt64.le_iff_toNat_le, covered_ofFile, executable_ofFile]
  exact List.countP_le_length

/-- Of numbers that are small enough nothing is lost. -/
theorem toNat_percentageOf {part whole : UInt64} (within : part ≤ whole)
    (fits : whole.toNat ≤ UInt32.size) :
    (percentageOf part whole).toNat = part.toNat * 100 / whole.toNat := by
  have limit : UInt32.size = 4294967296 := rfl
  rw [UInt64.le_iff_toNat_le] at within
  have percent_le : part.toNat * 100 / whole.toNat ≤ 100 := Nat.div_le_of_le_mul (by omega)
  have product : (part * 100).toNat = part.toNat * 100 := by
    rw [UInt64.toNat_mul]
    exact Nat.mod_eq_of_lt (by change part.toNat * 100 < _; omega)
  rw [percentageOf]
  split
  · next none =>
      rw [none]
      exact (Nat.div_zero _).symm
  · rw [UInt64.toNat_toUInt32, UInt64.toNat_div, product]
    exact Nat.mod_eq_of_lt (by omega)

theorem percentageOf_mono {part more whole : UInt64} (le : part ≤ more) (within : more ≤ whole)
    (fits : whole.toNat ≤ UInt32.size) : percentageOf part whole ≤ percentageOf more whole := by
  rw [UInt32.le_iff_toNat_le, toNat_percentageOf (UInt64.le_trans le within) fits,
    toNat_percentageOf within fits]
  exact Nat.div_le_div_right (Nat.mul_le_mul_right 100 (UInt64.le_iff_toNat_le.mp le))

end Figures

namespace FileHits.Grows

variable {before after : FileHits}

theorem covered_le (grows : before.Grows after) (statements : StatementLines) :
    (Figures.ofFile before statements).covered ≤ (Figures.ofFile after statements).covered := by
  rw [UInt64.le_iff_toNat_le, Figures.covered_ofFile, Figures.covered_ofFile]
  apply List.countP_mono_left
  intro line _ counted
  rw [Std.TreeMap.contains_iff_mem] at counted ⊢
  exact grows.lines line counted

theorem percentage_le (grows : before.Grows after) (statements : StatementLines) :
    (Figures.ofFile before statements).percentage ≤
      (Figures.ofFile after statements).percentage :=
  Figures.percentageOf_mono (grows.covered_le statements)
    (Figures.covered_le_executable after statements)
    (Figures.executable_le_size after statements)

end FileHits.Grows
end LuaCoverage
