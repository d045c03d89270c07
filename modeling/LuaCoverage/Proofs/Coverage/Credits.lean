import LuaCoverage.Coverage.Tally
import Mathlib.Algebra.Ring.Nat

/-!
# Credits

A credit is a record that was added, with the file that it went to.  A list of credits in the order
of adding says what a tally has to hold: which files in which order, and the hits of every line.
-/

namespace LuaCoverage

/-- A record that was added and the file that it went to. -/
structure Credit where
  /-- The record. -/
  record : Record
  /-- The file. -/
  path : Path

namespace Credit

/-- The file that a spelling was first found to lead to. -/
def destination (credits : List Credit) (source : String) : Option Path :=
  (credits.find? (·.record.source = source)).map (·.path)

/-- Whether a line of a file is credited. -/
def Names (path : Path) (line : Nat) (credit : Credit) : Prop :=
  credit.path = path ∧ credit.record.line = line

instance (path : Path) (line : Nat) (credit : Credit) : Decidable (credit.Names path line) :=
  inferInstanceAs (Decidable (_ ∧ _))

/-- The sum of all hits of a line of a file, however large. -/
def total (credits : List Credit) (path : Path) (line : Nat) : Nat :=
  ((credits.filter (·.Names path line)).map (·.record.count.toNat)).sum

theorem destination_append (credits : List Credit) (credit : Credit) (source : String) :
    destination (credits ++ [credit]) source =
      (destination credits source).or
        (if credit.record.source = source then some credit.path else none) := by
  rw [destination, List.find?_append, Option.map_or, destination, List.find?_singleton]
  by_cases same : credit.record.source = source <;> simp [same]

/-- A spelling that is known keeps its destination. -/
theorem destination_append_of_known {credits : List Credit} {credit : Credit}
    (known : destination credits credit.record.source = some credit.path) (source : String) :
    destination (credits ++ [credit]) source = destination credits source := by
  rw [destination_append]
  by_cases same : credit.record.source = source
  · rw [← same, known, Option.some_or]
  · rw [if_neg same, Option.or_none]

theorem exists_of_destination {credits : List Credit} {source : String} {path : Path}
    (known : destination credits source = some path) :
    ∃ credit ∈ credits, credit.record.source = source ∧ credit.path = path := by
  obtain ⟨credit, found, path_eq⟩ := Option.map_eq_some_iff.mp known
  have source_eq := List.find?_some found
  exact ⟨credit, List.mem_of_find?_eq_some found, by simpa using source_eq, path_eq⟩

/-- All credits of one spelling go to one file. -/
def Consistent (credits : List Credit) : Prop :=
  ∀ credit ∈ credits, destination credits credit.record.source = some credit.path

theorem Consistent.append {credits : List Credit} {credit : Credit}
    (consistent : Consistent credits)
    (leads : destination credits credit.record.source = some credit.path ∨
      destination credits credit.record.source = none) :
    Consistent (credits ++ [credit]) := by
  intro other member
  rw [destination_append]
  rcases List.mem_append.mp member with earlier | last
  · rw [consistent other earlier, Option.some_or]
  · obtain rfl := List.mem_singleton.mp last
    rcases leads with known | unknown
    · rw [known, Option.some_or]
    · rw [unknown, Option.none_or, if_pos rfl]

theorem exists_names_append {credits : List Credit} {credit : Credit} {path : Path} {line : Nat} :
    (∃ later ∈ credits ++ [credit], later.Names path line) ↔
      credit.Names path line ∨ ∃ earlier ∈ credits, earlier.Names path line := by
  rw [or_comm]
  simp [or_and_right, exists_or]

theorem total_append (credits more : List Credit) (path : Path) (line : Nat) :
    total (credits ++ more) path line = total credits path line + total more path line := by
  simp [total]

theorem total_append_of_names {credits : List Credit} {credit : Credit} {path : Path} {line : Nat}
    (names : credit.Names path line) :
    total (credits ++ [credit]) path line =
      total credits path line + credit.record.count.toNat := by
  simp [total, names]

theorem total_append_of_not_names {credits : List Credit} {credit : Credit} {path : Path}
    {line : Nat} (other : ¬ credit.Names path line) :
    total (credits ++ [credit]) path line = total credits path line := by
  simp [total, other]

theorem total_of_not_mem {credits : List Credit} {path : Path}
    (fresh : path ∉ credits.map (·.path)) (line : Nat) : total credits path line = 0 := by
  have none_named : credits.filter (·.Names path line) = [] := by
    rw [List.filter_eq_nil_iff]
    intro credit member named
    have ⟨path_eq, _⟩ : credit.Names path line := by simpa using named
    exact fresh (List.mem_map.mpr ⟨credit, member, path_eq⟩)
  rw [total, none_named]
  rfl

end Credit

/-- A file has exactly the lines that credits name, each with the sum of their hits up to the
greatest count. -/
structure FileHits.Reflects (file : FileHits) (credits : List Credit) : Prop where
  /-- The display name is that of the path. -/
  name : file.name = file.path.stem
  /-- A line is kept if some credit names it, be it with no hits. -/
  named : ∀ line, line ∈ file.lines ↔ ∃ credit ∈ credits, credit.Names file.path line
  /-- Hits add up to the greatest count. -/
  hits : ∀ line, (file.lines.getD line 0).toNat =
    min 18446744073709551615 (Credit.total credits file.path line)

namespace FileHits

@[simp]
theorem addHits_path (file : FileHits) (line : Nat) (count : UInt64) :
    (file.addHits line count).path = file.path := rfl

theorem mem_addHits {file : FileHits} {line other : Nat} {count : UInt64} :
    other ∈ (file.addHits line count).lines ↔ line = other ∨ other ∈ file.lines := by
  rw [addHits, Std.TreeMap.mem_insert, Std.LawfulEqCmp.compare_eq_iff_eq]

theorem getD_addHits (file : FileHits) (line other : Nat) (count : UInt64) :
    (file.addHits line count).lines.getD other 0 =
      if line = other then Count.add (file.lines.getD line 0) count
      else file.lines.getD other 0 := by
  rw [addHits, Std.TreeMap.getD_insert]
  simp only [Std.LawfulEqCmp.compare_eq_iff_eq]

theorem new_reflects {credits : List Credit} {path : Path}
    (fresh : path ∉ credits.map (·.path)) : (new path).Reflects credits where
  name := rfl
  named line := by
    constructor
    · intro member
      exact absurd member Std.TreeMap.not_mem_emptyc
    · rintro ⟨credit, member, path_eq, _⟩
      exact absurd (List.mem_map.mpr ⟨credit, member, path_eq⟩) fresh
  hits line := by
    have nothing : Credit.total credits (new path).path line = 0 :=
      Credit.total_of_not_mem fresh line
    rw [nothing]
    rfl

namespace Reflects

variable {file : FileHits} {credits : List Credit} {credit : Credit}

theorem addHits (reflects : file.Reflects credits) (same : credit.path = file.path) :
    (file.addHits credit.record.line credit.record.count).Reflects (credits ++ [credit]) where
  name := reflects.name
  named line := by
    rw [mem_addHits, reflects.named, Credit.exists_names_append, addHits_path]
    have names : credit.Names file.path line ↔ credit.record.line = line := and_iff_right same
    rw [names]
  hits line := by
    rw [getD_addHits, addHits_path]
    by_cases same_line : credit.record.line = line
    · have names : credit.Names file.path line := ⟨same, same_line⟩
      rw [if_pos same_line, Count.toNat_add, Credit.total_append_of_names names, ← same_line,
        reflects.hits]
      omega
    · have other : ¬ credit.Names file.path line := fun names => same_line names.2
      rw [if_neg same_line, Credit.total_append_of_not_names other, reflects.hits]

/-- A credit for another file changes nothing. -/
theorem other (reflects : file.Reflects credits) (different : credit.path ≠ file.path) :
    file.Reflects (credits ++ [credit]) where
  name := reflects.name
  named line := by
    have other : ¬ credit.Names file.path line := fun names => different names.1
    rw [reflects.named, Credit.exists_names_append, or_iff_right other]
  hits line := by
    have other : ¬ credit.Names file.path line := fun names => different names.1
    rw [Credit.total_append_of_not_names other, reflects.hits]

end Reflects
end FileHits
end LuaCoverage
