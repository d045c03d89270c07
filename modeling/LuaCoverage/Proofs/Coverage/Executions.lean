import LuaCoverage.Proofs.Coverage.Content
import LuaCoverage.Proofs.Coverage.Loading

/-!
# What was executed

A credit says that a line of a file was executed so many times.  The spelling of the source has no
part in a coverage, and the order of credits has none but that the files stand in the order of their
first credits.
-/

namespace LuaCoverage

/-- Hits of a line of a file. -/
structure Execution where
  /-- The file. -/
  path : Path
  /-- The line. -/
  line : Nat
  /-- Number of hits. -/
  count : UInt64

namespace Credit

/-- What is credited, without the spelling of the source. -/
def execution (credit : Credit) : Execution where
  path := credit.path
  line := credit.record.line
  count := credit.record.count

section Perm

variable {credits others : List Credit}

theorem total_eq_executions (credits : List Credit) (path : Path) (line : Nat) :
    total credits path line =
      (((credits.map execution).filter fun each =>
        each.path = path ∧ each.line = line).map (·.count.toNat)).sum := by
  rw [total, List.filter_map, List.map_map]
  rfl

theorem exists_names_iff {path : Path} {line : Nat} :
    (∃ credit ∈ credits, credit.Names path line) ↔
      ∃ each ∈ credits.map execution, each.path = path ∧ each.line = line := by
  simp [Names, execution]

variable (perm : (credits.map execution).Perm (others.map execution))
include perm

theorem total_of_perm (path : Path) (line : Nat) :
    total credits path line = total others path line := by
  rw [total_eq_executions, total_eq_executions]
  exact ((perm.filter _).map _).sum_nat

theorem exists_names_of_perm {path : Path} {line : Nat} :
    (∃ credit ∈ credits, credit.Names path line) ↔
      ∃ credit ∈ others, credit.Names path line := by
  simp only [exists_names_iff, perm.mem_iff]

theorem mem_paths_of_perm {path : Path} :
    path ∈ credits.map (·.path) ↔ path ∈ others.map (·.path) := by
  have paths : (credits.map (·.path)).Perm (others.map (·.path)) := by
    simpa [Function.comp_def, execution] using perm.map (·.path)
  exact paths.mem_iff

end Perm
end Credit

theorem FileHits.Reflects.content_eq {file other : FileHits} {credits others : List Credit}
    (first : file.Reflects credits) (second : other.Reflects others)
    (perm : (credits.map Credit.execution).Perm (others.map Credit.execution))
    (same : file.path = other.path) : file.content = other.content := by
  have named (line : Nat) : line ∈ file.lines ↔ line ∈ other.lines := by
    rw [first.named, second.named, Credit.exists_names_of_perm perm, same]
  have hits (line : Nat) : file.lines.getD line 0 = other.lines.getD line 0 := by
    apply UInt64.toNat_inj.mp
    rw [first.hits, second.hits, Credit.total_of_perm perm, same]
  apply FileHits.content_eq
  · rw [first.name, second.name, same]
  · exact same
  · intro line
    by_cases member : line ∈ file.lines
    · rw [Std.TreeMap.getElem?_eq_some_getD member,
        Std.TreeMap.getElem?_eq_some_getD ((named line).mp member), hits]
    · have absent : line ∉ other.lines := fun there => member ((named line).mpr there)
      rw [Std.TreeMap.getElem?_eq_none member, Std.TreeMap.getElem?_eq_none absent]

namespace Coverage.Reflects

variable {first second : Coverage} {credits others : List Credit}

theorem contents_subset (one : first.Reflects credits) (other : second.Reflects others)
    (perm : (credits.map Credit.execution).Perm (others.map Credit.execution)) :
    first.files.map FileHits.content ⊆ second.files.map FileHits.content := by
  intro content member
  obtain ⟨file, file_mem, rfl⟩ := List.mem_map.mp member
  have met : file.path ∈ second.files.map (·.path) := by
    rw [other.mem_paths, ← Credit.mem_paths_of_perm perm, ← one.mem_paths]
    exact List.mem_map_of_mem file_mem
  obtain ⟨counterpart, counterpart_mem, same⟩ := List.mem_map.mp met
  have content_eq := (one.files file file_mem).content_eq (other.files counterpart counterpart_mem)
    perm same.symm
  exact List.mem_map.mpr ⟨counterpart, counterpart_mem, content_eq.symm⟩

theorem nodup_contents (reflects : first.Reflects credits) :
    (first.files.map FileHits.content).Nodup := by
  apply List.Nodup.of_map FileContent.path
  rw [List.map_map]
  exact reflects.distinct

/-- In another order there are the same files with the same counts. -/
theorem contents_perm (one : first.Reflects credits) (other : second.Reflects others)
    (perm : (credits.map Credit.execution).Perm (others.map Credit.execution)) :
    (first.files.map FileHits.content).Perm (second.files.map FileHits.content) := by
  rw [List.perm_ext_iff_of_nodup one.nodup_contents other.nodup_contents]
  intro content
  constructor
  · exact fun member => one.contents_subset other perm member
  · exact fun member => other.contents_subset one perm.symm member

/-- In the same order the files stand in the same order: their paths do, and files with one path
have one content. -/
theorem contents_eq (one : first.Reflects credits) (other : second.Reflects others)
    (same : credits.map Credit.execution = others.map Credit.execution) :
    first.files.map FileHits.content = second.files.map FileHits.content := by
  have credited : credits.map (·.path) = others.map (·.path) := by
    simpa [Function.comp_def, Credit.execution] using congrArg (List.map (·.path)) same
  have paths : first.files.map (·.path) = second.files.map (·.path) := by
    rw [one.paths, other.paths, credited]
  apply List.ext_getElem?
  intro index
  have stands := congrArg (·[index]?) paths
  simp only [List.getElem?_map] at stands ⊢
  cases found : first.files[index]? with
  | none =>
      rw [found] at stands
      rw [Option.map_none] at stands ⊢
      rw [Option.map_eq_none_iff.mp stands.symm, Option.map_none]
  | some file =>
      rw [found] at stands
      obtain ⟨counterpart, counterpart_found, path_eq⟩ := Option.map_eq_some_iff.mp stands.symm
      have content_eq := (one.files file (List.mem_of_getElem? found)).content_eq
        (other.files counterpart (List.mem_of_getElem? counterpart_found))
        (List.Perm.of_eq same) path_eq.symm
      rw [counterpart_found, Option.map_some, Option.map_some, content_eq]

end Coverage.Reflects
end LuaCoverage
