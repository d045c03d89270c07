import LuaCoverage.Proofs.Coverage.Figures
import Mathlib.Data.Set.Card

/-!
# Figures are exact

The figures of a file are the sizes of two sets, the statement lines and those of them that have a
count.  Their percentage is rounded down, without any loss in machine words, and is one hundred only
where every statement line has a count.  Further hits raise the figures only where they are the
first of a statement line.
-/

namespace LuaCoverage
namespace Figures

/-- Statement lines that pass a test are counted as a set. -/
theorem countP_eq_ncard (statements : StatementLines) (test : Nat → Bool) :
    statements.numbers.countP test =
      {line | line ∈ statements ∧ test line.toNat = true}.ncard := by
  have distinct : statements.toList.Nodup := (List.Nodup.of_map _ statements.nodup_numbers)
  have listed : {line | line ∈ statements ∧ test line.toNat = true} =
      ((statements.toList.filter (test ∘ UInt32.toNat)).toFinset : Set UInt32) := by
    ext line
    simp
  rw [listed, Set.ncard_coe_finset, List.toFinset_card_of_nodup (distinct.filter _),
    ← List.countP_eq_length_filter, StatementLines.numbers, List.countP_map]

section File

variable (file : FileHits) (statements : StatementLines)

theorem executable_eq_ncard :
    (ofFile file statements).executable.toNat = {line | line ∈ statements}.ncard := by
  rw [executable_ofFile, ← List.countP_true, countP_eq_ncard]
  simp

theorem covered_eq_ncard : (ofFile file statements).covered.toNat =
    {line : UInt32 | line ∈ statements ∧ line.toNat ∈ file.lines}.ncard := by
  rw [covered_ofFile, countP_eq_ncard]
  simp

theorem covered_eq_executable_iff :
    (ofFile file statements).covered.toNat = (ofFile file statements).executable.toNat ↔
      ∀ line ∈ statements, line.toNat ∈ file.lines := by
  rw [covered_ofFile, executable_ofFile, List.countP_eq_length, StatementLines.numbers]
  simp

theorem toNat_percentage : (ofFile file statements).percentage.toNat =
    (ofFile file statements).covered.toNat * 100 / (ofFile file statements).executable.toNat :=
  toNat_percentageOf (covered_le_executable file statements) (executable_le_size file statements)

/-- Hits of a line that is no statement or had a count before change no figure. -/
theorem ofFile_addHits_of_known {line : Nat}
    (known : line ∈ statements.numbers → line ∈ file.lines) (count : UInt64) :
    ofFile (file.addHits line count) statements = ofFile file statements := by
  have kept : ∀ other ∈ statements.numbers,
      (file.addHits line count).lines.contains other = file.lines.contains other := by
    intro other listed
    rw [Bool.eq_iff_iff, Std.TreeMap.contains_iff_mem, Std.TreeMap.contains_iff_mem,
      FileHits.mem_addHits]
    constructor
    · rintro (rfl | before)
      · exact known listed
      · exact before
    · exact .inr
  rw [ofFile, ofFile, List.filter_congr kept]

end File

section Quotient

variable {part whole : Nat}

theorem div_bounds (positive : whole ≠ 0) :
    part * 100 / whole * whole ≤ 100 * part ∧ 100 * part < (part * 100 / whole + 1) * whole := by
  rw [Nat.mul_comm 100 part]
  refine ⟨Nat.div_mul_le_self _ _, ?_⟩
  rw [Nat.mul_comm (_ + 1) whole]
  exact Nat.lt_mul_div_succ _ (Nat.pos_of_ne_zero positive)

theorem div_le_hundred (within : part ≤ whole) : part * 100 / whole ≤ 100 :=
  Nat.div_le_of_le_mul (by omega)

/-- Only the whole is a hundred in a hundred. -/
theorem div_eq_hundred_iff (within : part ≤ whole) :
    part * 100 / whole = 100 ↔ whole ≠ 0 ∧ part = whole := by
  constructor
  · intro full
    have positive : whole ≠ 0 := by
      rintro rfl
      rw [Nat.div_zero] at full
      cases full
    have bound : part * 100 / whole * whole ≤ 100 * part := (div_bounds positive).1
    rw [full] at bound
    exact ⟨positive, by omega⟩
  · rintro ⟨positive, rfl⟩
    exact Nat.mul_div_cancel_left 100 (Nat.pos_of_ne_zero positive)

end Quotient

/-- The figures of a file are the number of statement lines and the number of those that have a
count, be it zero.  Their percentage is the quotient rounded down, as nothing of it overflows, is at
most one hundred and is one hundred just where there are statement lines and all of them have a
count.  With further hits the figures do not fall, and they rise only where these are the first hits
of a statement line. -/
theorem ofFile_exact (file : FileHits) (statements : StatementLines) :
    let figures := ofFile file statements
    figures.executable.toNat = {line | line ∈ statements}.ncard ∧
      figures.covered.toNat =
        {line : UInt32 | line ∈ statements ∧ line.toNat ∈ file.lines}.ncard ∧
      figures.covered ≤ figures.executable ∧
      figures.covered.toNat * 100 < 18446744073709551616 ∧
      figures.covered.toNat * 100 / figures.executable.toNat < 4294967296 ∧
      figures.percentage.toNat = figures.covered.toNat * 100 / figures.executable.toNat ∧
      (figures.executable = 0 → figures.percentage = 0) ∧
      (figures.executable ≠ 0 →
        figures.percentage.toNat * figures.executable.toNat ≤ 100 * figures.covered.toNat ∧
          100 * figures.covered.toNat <
            (figures.percentage.toNat + 1) * figures.executable.toNat) ∧
      figures.percentage ≤ 100 ∧
      (figures.percentage = 100 ↔
        (∃ line, line ∈ statements) ∧ ∀ line ∈ statements, line.toNat ∈ file.lines) ∧
      ∀ line count, let after := ofFile (file.addHits line count) statements
        figures.covered ≤ after.covered ∧ figures.percentage ≤ after.percentage ∧
          (after.covered ≠ figures.covered ∨ after.percentage ≠ figures.percentage →
            (∃ statement ∈ statements, statement.toNat = line) ∧ line ∉ file.lines) := by
  intro figures
  have within : figures.covered.toNat ≤ figures.executable.toNat :=
    UInt64.le_iff_toNat_le.mp (covered_le_executable file statements)
  have fits : figures.executable.toNat ≤ UInt32.size := executable_le_size file statements
  have limit : UInt32.size = 4294967296 := rfl
  have percentage : figures.percentage.toNat =
      figures.covered.toNat * 100 / figures.executable.toNat := toNat_percentage file statements
  have atMost : figures.covered.toNat * 100 / figures.executable.toNat ≤ 100 :=
    div_le_hundred within
  refine ⟨executable_eq_ncard file statements, covered_eq_ncard file statements,
    covered_le_executable file statements, by omega, by omega, percentage, fun none => ?_,
    fun positive => ?_, ?_, ?_, ?_⟩
  · rw [← UInt32.toNat_inj, percentage, none]
    exact Nat.div_zero _
  · rw [percentage]
    exact div_bounds fun none => positive (UInt64.toNat_inj.mp none)
  · rw [UInt32.le_iff_toNat_le, percentage]
    exact atMost
  · rw [← UInt32.toNat_inj, percentage]
    refine (div_eq_hundred_iff within).trans ?_
    rw [covered_eq_executable_iff, ← Nat.pos_iff_ne_zero, executable_ofFile,
      List.length_pos_iff_exists_mem, StatementLines.numbers]
    simp only [List.mem_map, Std.TreeSet.mem_toList]
    simp
  · intro line count
    have grows := FileHits.Grows.addHits file line count
    refine ⟨grows.covered_le statements, grows.percentage_le statements, fun changed => ?_⟩
    rw [← StatementLines.mem_numbers]
    by_contra known
    rw [not_and, not_not] at known
    rw [ofFile_addHits_of_known file statements known] at changed
    rcases changed with changed | changed <;> exact changed rfl

/-- Three statement lines, one of them recorded with no hits, and the greatest line there is. -/
theorem ofFile_exact_third :
    let file := ((FileHits.new (.ofText "/a.lua")).addHits 1 0).addHits 9 1
    let statements : StatementLines := .ofList [(1 : UInt32), 2, 4294967295]
    {line : UInt32 | line ∈ statements ∧ line.toNat ∈ file.lines}.ncard = 1 ∧
      (ofFile file statements).percentage = 33 ∧
      33 ≤ (ofFile (file.addHits 2 0) statements).percentage := by
  intro file statements
  obtain ⟨-, covered, -, -, -, -, -, -, -, -, later⟩ := ofFile_exact file statements
  have one : (ofFile file statements).covered = 1 := by decide +kernel
  have third : (ofFile file statements).percentage = 33 := by decide +kernel
  rw [one] at covered
  exact ⟨covered.symm, third, third ▸ (later 2 0).2.1⟩

end Figures
end LuaCoverage
