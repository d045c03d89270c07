import LuaCoverage.Proofs.Coverage.Credits
import Mathlib.Data.List.Nodup

/-!
# The indices of a tally

Both indices of a tally are exact: they say where the file of a path or of a known spelling stands,
and they know nothing else.  Finding the file of a record keeps them so, and so does every addition.
-/

namespace LuaCoverage
namespace Tally

/-- The paths of the files in order. -/
def paths (tally : Tally) : List Path := tally.files.toList.map (·.path)

theorem getElem?_paths (tally : Tally) (index : Nat) :
    tally.paths[index]? = tally.files[index]?.map (·.path) := by
  rw [paths, List.getElem?_map, Array.getElem?_toList]

theorem length_paths (tally : Tally) : tally.paths.length = tally.files.size := by
  rw [paths, List.length_map, Array.length_toList]

@[simp]
theorem remember_paths (tally : Tally) (source : String) (index : Nat) :
    (tally.remember source index).paths = tally.paths := rfl

@[simp]
theorem append_paths (tally : Tally) (path : Path) :
    (tally.append path).paths = tally.paths ++ [path] := by
  simp [append, paths, FileHits.new]

/-- After all others stands the path that was put there. -/
theorem append_stands {tally : Tally} {path other : Path} {index : Nat} :
    (tally.append path).paths[index]? = some other ↔
      tally.paths[index]? = some other ∨ tally.paths.length = index ∧ path = other := by
  rw [append_paths]
  rcases Nat.lt_trichotomy index tally.paths.length with before | rfl | beyond
  · rw [List.getElem?_append_left before]
    simp [Nat.ne_of_gt before]
  · simp
  · have outside : tally.paths[index]? = none := List.getElem?_eq_none (Nat.le_of_lt beyond)
    have furtherOutside : (tally.paths ++ [path])[index]? = none := by
      apply List.getElem?_eq_none
      rw [List.length_append, List.length_singleton]
      omega
    simp [outside, furtherOutside, Nat.ne_of_lt beyond]

theorem getElem?_credit (tally : Tally) (index other : Nat) (record : Record) :
    (tally.credit index record).files[other]? =
      if index = other then tally.files[other]?.map (·.addHits record.line record.count)
      else tally.files[other]? := by
  rw [credit, Array.getElem?_modify]

@[simp]
theorem credit_paths (tally : Tally) (index : Nat) (record : Record) :
    (tally.credit index record).paths = tally.paths := by
  apply List.ext_getElem?
  intro other
  rw [getElem?_paths, getElem?_paths, getElem?_credit]
  split
  · rw [Option.map_map]
    rfl
  · rfl

/-- Both indices are exact, given where each spelling leads. -/
structure Indexed (tally : Tally) (destination : String → Option Path) : Prop where
  /-- A path is known with the place where it stands. -/
  ofPath : ∀ (path : Path) (index : Nat),
    tally.indexOfPath[path]? = some index ↔ tally.paths[index]? = some path
  /-- A spelling is known with the place of the file that it leads to. -/
  ofSource : ∀ (source : String) (index : Nat),
    tally.indexOfSource[source]? = some index ↔
      ∃ path, destination source = some path ∧ tally.paths[index]? = some path

/-- Where a spelling leads once its destination is found. -/
def extend (destination : String → Option Path) (source : String) (path : Path) :
    String → Option Path :=
  fun other => (destination other).or (if source = other then some path else none)

namespace Indexed

variable {tally : Tally} {destination : String → Option Path}

/-- No two files have one path. -/
theorem index_unique (indexed : tally.Indexed destination) {path : Path} {index other : Nat}
    (stands : tally.paths[index]? = some path) (otherStands : tally.paths[other]? = some path) :
    index = other := by
  have found := (indexed.ofPath path index).mpr stands
  rw [(indexed.ofPath path other).mpr otherStands] at found
  exact (Option.some.inj found).symm

theorem nodup_paths (indexed : tally.Indexed destination) : tally.paths.Nodup := by
  rw [List.nodup_iff_injective_get]
  intro index other same
  apply Fin.ext
  have stands : tally.paths[index.val]? = some (tally.paths.get other) := by
    rw [← same]
    exact List.getElem?_eq_getElem index.isLt
  exact indexed.index_unique stands (List.getElem?_eq_getElem other.isLt)

theorem unknown_path (indexed : tally.Indexed destination) {path : Path} :
    tally.indexOfPath[path]? = none ↔ path ∉ tally.paths := by
  rw [Option.eq_none_iff_forall_ne_some, List.mem_iff_getElem?, not_exists]
  simp only [ne_eq, indexed.ofPath]

theorem credit (indexed : tally.Indexed destination) (index : Nat) (record : Record) :
    (tally.credit index record).Indexed destination where
  ofPath path other := by
    rw [credit_paths]
    exact indexed.ofPath path other
  ofSource source other := by
    rw [credit_paths]
    exact indexed.ofSource source other

/-- A spelling that was unknown is remembered with the place of its file. -/
theorem remember (indexed : tally.Indexed destination) {source : String} {path : Path}
    {index : Nat} (unknown : destination source = none)
    (stands : tally.paths[index]? = some path) :
    (tally.remember source index).Indexed (extend destination source path) where
  ofPath := indexed.ofPath
  ofSource other otherIndex := by
    rw [Tally.remember, Std.HashMap.getElem?_insert]
    by_cases same : source = other
    · subst same
      rw [if_pos (beq_self_eq_true source), extend, unknown, Option.none_or, if_pos rfl]
      constructor
      · rintro ⟨rfl⟩
        exact ⟨path, rfl, stands⟩
      · rintro ⟨_, ⟨rfl⟩, otherStands⟩
        rw [indexed.index_unique stands otherStands]
    · rw [if_neg (by simpa using same), extend, if_neg same, Option.or_none]
      exact indexed.ofSource other otherIndex

/-- A new path is put after all others. -/
theorem append (indexed : tally.Indexed destination) {path : Path} (fresh : path ∉ tally.paths)
    (known : ∀ source other, destination source = some other → other ∈ tally.paths) :
    (tally.append path).Indexed destination where
  ofPath other index := by
    rw [append_stands, Tally.append, Std.HashMap.getElem?_insert, ← length_paths]
    by_cases same : path = other
    · subst same
      have absent : tally.paths[index]? ≠ some path := fun stands =>
        fresh (List.mem_of_getElem? stands)
      rw [if_pos (beq_self_eq_true path), or_iff_right absent, Option.some_inj]
      exact (and_iff_left rfl).symm
    · rw [if_neg (by simpa using same), indexed.ofPath]
      simp [same]
  ofSource source index := by
    rw [Tally.append, indexed.ofSource]
    apply exists_congr
    intro other
    apply and_congr_right
    intro leads
    have different : path ≠ other := fun same => fresh (same ▸ known source other leads)
    change _ ↔ (tally.append path).paths[index]? = some other
    rw [append_stands]
    simp [different]

end Indexed

/-! ## Finding the file of a record -/

/-- The ways in which the file of a record is found, with the place of the file, the tally that
knows it and what is logged. -/
inductive Locates (system : FileSystem) (tally : Tally) (record : Record) :
    Nat → Tally → List Event → Prop
  /-- The spelling is known. -/
  | known {index : Nat} (known : tally.indexOfSource[record.source]? = some index) :
      Locates system tally record index tally []
  /-- A new spelling leads to a file that is there. -/
  | merged {index : Nat} {path : Path} (unknown : tally.indexOfSource[record.source]? = none)
      (leads : system.findSource tally.root record.source
        (Tag.render record.source record.line) = .ok path)
      (met : tally.indexOfPath[path]? = some index) :
      Locates system tally record index (tally.remember record.source index)
        [.merged record.source path]
  /-- A new spelling leads to a new file. -/
  | new {path : Path} (unknown : tally.indexOfSource[record.source]? = none)
      (leads : system.findSource tally.root record.source
        (Tag.render record.source record.line) = .ok path)
      (fresh : tally.indexOfPath[path]? = none) :
      Locates system tally record tally.files.size
        ((tally.append path).remember record.source tally.files.size) []

section Addition

variable {system : FileSystem} {tally : Tally} {record : Record} {events : List Event}

theorem locates_of_locate {index : Nat} {located : Tally}
    (found : tally.locate system record = .ok (index, located, events)) :
    Locates system tally record index located events := by
  rw [locate] at found
  split at found
  · next known =>
      cases found
      exact .known known
  · next unknown =>
      split at found
      · cases found
      · next path leads =>
          split at found
          · next met =>
              cases found
              exact .merged unknown leads met
          · next fresh =>
              cases found
              exact .new unknown leads fresh

/-- What an addition does: it credits the record to the file that it finds. -/
theorem exists_locates_of_add {grown : Tally}
    (added : tally.add system record = .ok (grown, events)) :
    ∃ index located, Locates system tally record index located events ∧
      grown = located.credit index record := by
  rw [add] at added
  cases found : tally.locate system record with
  | error error =>
      rw [found] at added
      cases added
  | ok parts =>
      obtain ⟨index, located, additions⟩ := parts
      rw [found] at added
      cases added
      exact ⟨index, located, locates_of_locate found, rfl⟩

end Addition

end Tally
end LuaCoverage
