import LuaCoverage.Proofs.Coverage.Figures
import LuaCoverage.Proofs.Coverage.Loading

/-!
# Profiles cut short

A process that is killed leaves the start of the profile that it would have written.  Wherever the
cut falls, loading the start fails only as loading the whole does, and the coverage of the start is
an earlier state of the coverage of the whole.
-/

namespace LuaCoverage
namespace Coverage

namespace Reflects

variable {part whole : Coverage} {credits more : List Credit}

theorem paths_isPrefix (earlier : part.Reflects credits)
    (later : whole.Reflects (credits ++ more)) :
    part.files.map (·.path) <+: whole.files.map (·.path) := by
  rw [earlier.paths, later.paths, List.map_append, List.eraseDups_append]
  exact List.prefix_append _ _

/-- With further credits every file stays where it stands and grows. -/
theorem exists_grown (earlier : part.Reflects credits) (later : whole.Reflects (credits ++ more))
    {index : Nat} {file : FileHits} (found : part.files[index]? = some file) :
    ∃ grown, whole.files[index]? = some grown ∧ file.Grows grown := by
  have stands : (part.files.map (·.path))[index]? = some file.path := by
    rw [List.getElem?_map, found, Option.map_some]
  have remains : (whole.files.map (·.path))[index]? = some file.path := by
    obtain ⟨rest, whole_eq⟩ := earlier.paths_isPrefix later
    obtain ⟨inside, -⟩ := List.getElem?_eq_some_iff.mp stands
    rw [← whole_eq, List.getElem?_append_left inside, stands]
  rw [List.getElem?_map] at remains
  obtain ⟨grown, grown_found, same⟩ := Option.map_eq_some_iff.mp remains
  have before := earlier.files file (List.mem_of_getElem? found)
  have after := later.files grown (List.mem_of_getElem? grown_found)
  exact ⟨grown, grown_found, before.grows after same⟩

end Reflects

/-- Loading a profile that is cut after any number of octets.  If that fails, the whole profile
fails with the same error.  If the whole profile loads, so does what is left of it: its files are
the first files of the whole and its points are no more; every file has no line that the file of
the whole lacks and no greater count; and with any statement lines neither the covered lines nor
the percentage are greater. -/
theorem ofProfile_take (system : FileSystem) (root : Path) (octets : List UInt8) (size : Nat) :
    (∀ error, (ofProfile system root (octets.take size)).1 = .error error →
      (ofProfile system root octets).1 = .error error) ∧
    ∀ whole, (ofProfile system root octets).1 = .ok whole →
      ∃ part, (ofProfile system root (octets.take size)).1 = .ok part ∧
        part.files.map (·.path) <+: whole.files.map (·.path) ∧
        part.points ≤ whole.points ∧
        ∀ (index : Nat) (file : FileHits), part.files[index]? = some file →
          ∃ grown, whole.files[index]? = some grown ∧
            grown.path = file.path ∧
            (∀ line, line ∈ file.lines → line ∈ grown.lines) ∧
            (∀ line, (file.lines.getD line 0).toNat ≤ (grown.lines.getD line 0).toNat) ∧
            ∀ statements : StatementLines,
              (Figures.ofFile file statements).covered ≤
                (Figures.ofFile grown statements).covered ∧
              (Figures.ofFile file statements).percentage ≤
                (Figures.ofFile grown statements).percentage := by
  have splits := Profile.splits_split octets
  have cutSplits := Profile.splits_split (octets.take size)
  obtain ⟨lost, records_eq⟩ := cutSplits.isPrefix_of_isPrefix splits (List.take_prefix size octets)
  rw [← records_eq] at splits
  constructor
  · intro error failed
    have offence := (ofProfile_eq_error_iff cutSplits).mp failed
    rw [ofProfile_eq_error_iff splits, List.findSome?_append, offence, Option.some_or]
  · intro whole loaded
    have unoffended := (exists_ofProfile_iff splits).mp ⟨whole, loaded⟩
    rw [List.findSome?_append, Option.or_eq_none_iff] at unoffended
    obtain ⟨part, part_loaded⟩ := (exists_ofProfile_iff cutSplits).mpr unoffended.1
    have earlier := reflects_of_ofProfile cutSplits part_loaded
    have later := reflects_of_ofProfile splits loaded
    rw [List.filterMap_append] at later
    refine ⟨part, part_loaded, earlier.paths_isPrefix later, ?_, ?_⟩
    · rw [earlier.points, later.points, List.length_append]
      exact Nat.le_add_right _ _
    · intro index file found
      obtain ⟨grown, grown_found, grows⟩ := earlier.exists_grown later found
      exact ⟨grown, grown_found, grows.path, grows.lines, grows.hits,
        fun statements => ⟨grows.covered_le statements, grows.percentage_le statements⟩⟩

end Coverage
end LuaCoverage
