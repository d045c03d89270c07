import LuaCoverage.Proofs.FileSystem.Following
import Mathlib.Data.List.Induction

/-!
# Canonical paths

The path of a place spells the names down to it and nothing else.  Where no link stands at the
place, the walk along this path comes back to it, so that resolving the path once more changes
nothing.
-/

namespace LuaCoverage

namespace Path

theorem split_of_not_mem {name : Name} (plain : separator ∉ name) : split name = [name] := by
  induction name with
  | nil => rfl
  | cons octet name ih =>
      rw [List.mem_cons, not_or] at plain
      rw [split, if_neg (Ne.symm plain.1), ih plain.2]

theorem split_ne_nil (octets : List UInt8) : split octets ≠ [] := by
  cases octets with
  | nil => exact List.cons_ne_nil _ _
  | cons octet octets =>
      rw [split]
      split
      · exact List.cons_ne_nil _ _
      · split <;> exact List.cons_ne_nil _ _

/-- A separator parts the pieces before it from those behind it. -/
theorem split_append (front rest : List UInt8) :
    split (front ++ separator :: rest) = split front ++ split rest := by
  induction front with
  | nil => exact if_pos rfl
  | cons octet front ih =>
      rw [List.cons_append, split, split, ih]
      by_cases parts : octet = separator
      · rw [if_pos parts, if_pos parts, List.cons_append]
      · rw [if_neg parts, if_neg parts]
        cases pieces : split front with
        | nil => exact absurd pieces (split_ne_nil front)
        | cons name names => rfl

theorem split_flatMap {name : Name} {names : List Name}
    (plain : ∀ other ∈ name :: names, separator ∉ other) :
    split (name ++ names.flatMap (separator :: ·)) = name :: names := by
  induction names generalizing name with
  | nil =>
      rw [List.flatMap_nil, List.append_nil, split_of_not_mem (plain name List.mem_cons_self)]
  | cons next names ih =>
      obtain ⟨first, others⟩ := List.forall_mem_cons.mp plain
      rw [List.flatMap_cons, List.cons_append, split_append, split_of_not_mem first, ih others,
        List.singleton_append]

end Path

namespace Disk

theorem pieces_pathOf_cons {name : Name} {names : List Name}
    (plain : ∀ other ∈ name :: names, Path.separator ∉ other) :
    (pathOf (name :: names)).pieces = [] :: name :: names := by
  have first := Path.split_append [] (name ++ names.flatMap (Path.separator :: ·))
  rwa [Path.split_flatMap plain] at first

theorem isAbsolute_pathOf (place : Location) : (pathOf place).isAbsolute = true := by
  cases place <;> simp [pathOf, Path.isAbsolute]

theorem mem_octets_pathOf {place : Location} {octet : UInt8}
    (inside : octet ∈ (pathOf place).octets) :
    octet = Path.separator ∨ ∃ name ∈ place, octet ∈ name := by
  cases place with
  | nil => exact .inl (List.mem_singleton.mp inside)
  | cons first place =>
      obtain ⟨name, listed, spelled⟩ := List.mem_flatMap.mp inside
      exact (List.mem_cons.mp spelled).imp_right fun member => ⟨name, listed, member⟩

/-- Places with proper names have different paths. -/
theorem pathOf_injective {place other : Location} (named : ∀ name ∈ place, Name.IsEntry name)
    (otherNamed : ∀ name ∈ other, Name.IsEntry name) (same : pathOf place = pathOf other) :
    place = other := by
  have pieces := congrArg Path.pieces same
  have root : (pathOf []).pieces = [[], []] := rfl
  cases place with
  | nil =>
      cases other with
      | nil => rfl
      | cons name other =>
          rw [root, pieces_pathOf_cons fun name listed => (otherNamed name listed).plain] at pieces
          obtain rfl : [] = name := (List.cons.inj (List.cons.inj pieces).2).1
          exact absurd rfl (otherNamed [] List.mem_cons_self).ne_nil
  | cons name place =>
      rw [pieces_pathOf_cons fun name listed => (named name listed).plain] at pieces
      cases other with
      | nil =>
          obtain rfl : name = [] := (List.cons.inj (List.cons.inj pieces).2).1
          exact absurd rfl (named [] List.mem_cons_self).ne_nil
      | cons =>
          rw [pieces_pathOf_cons fun name listed => (otherNamed name listed).plain] at pieces
          exact (List.cons.inj pieces).2

theorem length_pathOf_le_append (front rest : Location) :
    (pathOf front).octets.length ≤ (pathOf (front ++ rest)).octets.length := by
  cases front with
  | nil => cases rest <;> simp [pathOf]
  | cons => simp [pathOf]

theorem exceeds_mono {limit : Option Nat} {front rest : Location}
    (fits : ¬exceeds limit (front ++ rest) 0 = true) : ¬exceeds limit front 0 = true := by
  have le := length_pathOf_le_append front rest
  cases limit with
  | none => exact not_exceeds_none front 0
  | some limit =>
      simp only [exceeds, Option.any_some, decide_eq_true_eq] at fits ⊢
      omega

theorem not_stays {name : Name} (ordinary : name.IsOrdinary) : ¬stays name = true :=
  fun skipped => not_isOrdinary_of_same (stays_iff.mp skipped) ordinary

theorem askDirectory_of_ordinary {names : List Name} (ordinary : ∀ name ∈ names, name.IsOrdinary) :
    askDirectory names = false := by
  cases names with
  | nil => rfl
  | cons name names =>
      have first := ordinary name List.mem_cons_self
      rw [askDirectory, List.dropWhile_cons_of_neg (not_stays first)]
      exact beq_eq_false_iff_ne.mpr first.ne_above

section Place

variable {disk : Disk} (sound : disk.Sound)
include sound

/-- Above a place stand directories. -/
theorem Sound.directory_above {front rest : Location} {node : Node} (more : rest ≠ [])
    (stands : disk.node? (front ++ rest) = some node) : disk.node? front = some .directory := by
  induction rest using List.reverseRecOn generalizing node with
  | nil => exact absurd rfl more
  | append_singleton rest name ih =>
      rw [← List.append_assoc] at stands
      have above := sound.rooted (front ++ rest) name node stands
      by_cases last : rest = []
      · rw [last, List.append_nil] at above
        exact above
      · exact ih last above

/-- Along the names down to a place a walk comes to it. -/
theorem Sound.walk_down {limit : Option Nat} {links : Nat} {front rest : Location} {node : Node}
    (stands : disk.node? (front ++ rest) = some node) (unlinked : ∀ target, node ≠ .link target)
    (fits : ¬exceeds limit (front ++ rest) 0 = true) :
    disk.walk limit links front rest = .ok (front ++ rest) := by
  induction rest generalizing front with
  | nil => rw [walk, List.append_nil]
  | cons name rest ih =>
      have ordinary : ∀ other ∈ name :: rest, other.IsOrdinary := fun other listed =>
        (sound.named _ node stands other (List.mem_append_right front listed)).toIsOrdinary
      obtain ⟨first, others⟩ := List.forall_mem_cons.mp ordinary
      have further := askDirectory_of_ordinary others
      rw [List.append_cons] at stands fits ⊢
      obtain ⟨entry, found, plain⟩ : ∃ entry, disk.node? (front ++ [name]) = some entry ∧
          ∀ target, entry ≠ .link target := by
        by_cases last : rest = []
        · rw [last, List.append_nil] at stands
          exact ⟨node, stands, unlinked⟩
        · refine ⟨.directory, sound.directory_above last stands, fun target same => ?_⟩
          cases same
      rw [walk_name (not_stays first) (mt beq_iff_eq.mp first.ne_above) (exceeds_mono fits)]
      · exact ih stands fits
      · intro target linked
        exact plain target (Option.some.inj (found.symm.trans linked))
      · refine obstacle?_eq_none_iff.mpr ⟨?_, entry, found, fun _ _ => further⟩
        rw [further]
        exact Bool.false_ne_true

/-- Below the root, the names of a place are the pieces of its path. -/
theorem Sound.pieces_pathOf {place : Location} {node : Node}
    (stands : disk.node? place = some node) (below : place ≠ []) :
    (pathOf place).pieces = [] :: place := by
  obtain ⟨name, names, rfl⟩ := List.exists_cons_of_ne_nil below
  exact pieces_pathOf_cons fun other listed => (sound.named _ node stands other listed).plain

/-- The path of a place leads to it. -/
theorem Sound.locate_pathOf {limit : Option Nat} {place : Location} {node : Node}
    (stands : disk.node? place = some node) (unlinked : ∀ target, node ≠ .link target)
    (fits : ¬exceeds limit place 0 = true) : disk.locate limit (pathOf place) = .ok place := by
  have noNul : (0 : UInt8) ∉ (pathOf place).octets := by
    intro inside
    rcases mem_octets_pathOf inside with separator | ⟨name, listed, member⟩
    · exact absurd separator (by decide)
    · exact (sound.named place node stands name listed).noNul member
  have ne_nil : (pathOf place).octets ≠ [] := by
    cases place <;> exact List.cons_ne_nil _ _
  have skipped : stays [] = true := rfl
  rw [locate_of_checked (checked_of_proper ne_nil noNul), startOf, if_pos (isAbsolute_pathOf place)]
  cases place with
  | nil =>
      have root : (pathOf []).pieces = [[], []] := rfl
      rw [root, walk_stays skipped, walk_stays skipped, walk]
  | cons name place =>
      rw [sound.pieces_pathOf stands (List.cons_ne_nil name place), walk_stays skipped]
      exact sound.walk_down stands unlinked fits

/-- A path as it is resolved is resolved to itself. -/
theorem Sound.realpath_pathOf {place : Location} {node : Node}
    (stands : disk.node? place = some node) (unlinked : ∀ target, node ≠ .link target)
    (fits : (pathOf place).octets.length ≤ maxSpelling) :
    disk.realpath (pathOf place) = .ok (pathOf place) := by
  rw [realpath, sound.locate_pathOf stands unlinked (by simpa [exceeds] using fits)]
  rfl

/-- The path of a place without a link is reported as that of a file just where a file stands. -/
theorem Sound.exists_isFile_pathOf {place : Location} {node : Node}
    (stands : disk.node? place = some node) (unlinked : ∀ target, node ≠ .link target) :
    ∃ regular, disk.isFile (pathOf place) = .ok regular ∧
      (regular = true ↔ ∃ content, node = .file content) := by
  rw [isFile, sound.locate_pathOf stands unlinked (not_exceeds_none place 0)]
  refine ⟨_, rfl, ?_⟩
  dsimp only
  rw [stands]
  cases node <;> simp

end Place
end Disk
end LuaCoverage
