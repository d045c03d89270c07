import LuaCoverage.Proofs.FileSystem.Sources
import Mathlib

/-!
# Sources beneath a root

Without links the spelling of a path alone decides where it leads: some directories up and some
names down.  So a source that is found lies beneath the root just where it goes down again what it
went up.  Only separators in front of a source are left aside, and with two dots it can leave the
root.
-/

namespace LuaCoverage

namespace Path

/-- The names of a path, empty ones left aside. -/
def names (path : Path) : List Name := path.pieces.filter fun name => name ≠ []

/-- The names of a path go on where those of another one end. -/
def LiesBeneath (path above : Path) : Prop := above.names <+: path.names ∧ above.names ≠ path.names

instance (path above : Path) : Decidable (path.LiesBeneath above) :=
  inferInstanceAs (Decidable (_ ∧ _))

theorem isAbsolute_join {root : Path} (ne_nil : root.octets ≠ []) (beneath : Path) :
    (root.join beneath).isAbsolute = root.isAbsolute := by
  obtain ⟨octet, octets, spelled⟩ := List.exists_cons_of_ne_nil ne_nil
  rw [join]
  split <;> rw [isAbsolute, isAbsolute, spelled] <;> rfl

/-- The pieces of a path beneath a root follow those of the root, but for an empty one that ends
it. -/
theorem pieces_join {root : Path} (ne_nil : root.octets ≠ []) (beneath : Path) :
    ∃ front, (root.pieces = front ∨ root.pieces = front ++ [[]]) ∧
      (root.join beneath).pieces = front ++ beneath.pieces := by
  by_cases ends : root.octets.getLast? = some separator
  · obtain ⟨octets, spelled⟩ := List.getLast?_eq_some_iff.mp ends
    refine ⟨split octets, .inr ?_, ?_⟩
    · rw [pieces, spelled, split_append]
      rfl
    · rw [join, if_pos (by simp [ends]), pieces, spelled, List.append_assoc]
      exact split_append octets beneath.octets
  · refine ⟨root.pieces, .inl rfl, ?_⟩
    rw [join, if_neg (by simp [ends, ne_nil])]
    exact split_append root.octets beneath.octets

end Path

/-- Where names lead from a directory: some directories up and some names down. -/
structure Course where
  /-- Number of directories up. -/
  up : Nat
  /-- Names down from there. -/
  down : List Name

namespace Course

/-- Follow one more name. -/
def turn (course : Course) (name : Name) : Course :=
  if Disk.stays name then course
  else if name == Path.directoryAbove then
    if course.down = [] then { course with up := course.up + 1 }
    else { course with down := course.down.dropLast }
  else { course with down := course.down ++ [name] }

/-- The course of names. -/
def ofNames (names : List Name) : Course := names.foldl turn ⟨0, []⟩

/-- Where a course leads from a place.  Nothing is above the root. -/
def placeFrom (course : Course) (here : Location) : Location :=
  here.take (here.length - course.up) ++ course.down

/-- Names that do not lead up only lead down. -/
theorem up_ofNames {names : List Name} (level : Path.directoryAbove ∉ names) :
    (ofNames names).up = 0 := by
  suffices ∀ course : Course, (names.foldl turn course).up = course.up from this ⟨0, []⟩
  induction names with
  | nil => exact fun course => rfl
  | cons name names ih =>
      rw [List.mem_cons, not_or] at level
      intro course
      have below : ¬(name == Path.directoryAbove) = true := fun above =>
        level.1 (beq_iff_eq.mp above).symm
      rw [List.foldl_cons, ih level.2, turn, if_neg below]
      split <;> rfl

end Course

namespace Disk

/-- The place where a name leads on a disk without links. -/
def turn (here : Location) (name : Name) : Location :=
  if stays name then here
  else if name == Path.directoryAbove then here.dropLast
  else here ++ [name]

theorem dropLast_take_sub (here : Location) (count : Nat) :
    (here.take (here.length - count)).dropLast = here.take (here.length - (count + 1)) := by
  rw [List.dropLast_eq_take, List.take_take, List.length_take]
  congr 1
  omega

/-- A name leads from the place of a course to the place of the course with this name. -/
theorem turn_placeFrom (here : Location) (course : Course) (name : Name) :
    turn (course.placeFrom here) name = (course.turn name).placeFrom here := by
  rw [turn, Course.turn]
  split
  · rfl
  · split
    · by_cases level : course.down = []
      · rw [if_pos level, Course.placeFrom, Course.placeFrom, level, List.append_nil,
          List.append_nil, dropLast_take_sub]
      · rw [if_neg level, Course.placeFrom, Course.placeFrom, List.dropLast_append_of_ne_nil level]
    · rw [Course.placeFrom, Course.placeFrom, List.append_assoc]

/-- Names lead where their course leads. -/
theorem foldl_turn (here : Location) (names : List Name) :
    names.foldl turn here = (Course.ofNames names).placeFrom here := by
  have start : here = Course.placeFrom ⟨0, []⟩ here := by simp [Course.placeFrom]
  rw [Course.ofNames, ← List.foldl_hom (Course.placeFrom · here) (turn_placeFrom here), ← start]

/-- No entry is a link. -/
def LinkFree (disk : Disk) : Prop := ∀ place target, disk.node? place ≠ some (.link target)

theorem linkFree_of_entries {disk : Disk}
    (unlinked : ∀ entry ∈ disk.entries, ∀ target, entry.2 ≠ .link target) : disk.LinkFree := by
  intro place target linked
  have below : place ≠ [] := by
    rintro rfl
    cases linked
  exact unlinked _ (mem_entries_of_node? below linked) target rfl

section LinkFree

variable {disk : Disk} (linkFree : disk.LinkFree)
include linkFree

/-- A walk that passes no link turns at each name. -/
theorem LinkFree.walk_eq {limit : Option Nat} {links : Nat} {here place : Location}
    {names : List Name} (walked : disk.walk limit links here names = .ok place) :
    names.foldl turn here = place := by
  fun_induction walk disk limit links here names with
  | case1 links here => exact Except.ok.inj walked
  | case2 links here name rest skipped ih =>
      rw [List.foldl_cons, turn, if_pos skipped]
      exact ih walked
  | case3 links here name rest moves above ih =>
      rw [List.foldl_cons, turn, if_neg moves, if_pos above]
      exact ih walked
  | case4 | case7 => cases walked
  | case5 here name rest moves below fits target linked => exact absurd linked (linkFree _ _)
  | case6 here name rest moves below fits target links linked => exact absurd linked (linkFree _ _)
  | case8 here name rest moves below fits links free loop follow ih =>
      rw [List.foldl_cons, turn, if_neg moves, if_neg below]
      exact ih walked

/-- A path that is resolved leads where its pieces turn. -/
theorem LinkFree.foldl_pieces {limit : Option Nat} {path : Path} {place : Location}
    (located : disk.locate limit path = .ok place) :
    path.octets ≠ [] ∧ path.pieces.foldl turn (startOf disk.workingDirectory path) = place := by
  have passed := checked_of_locate located
  rw [locate_of_checked passed] at located
  refine ⟨fun nothing => ?_, linkFree.walk_eq located⟩
  rw [checked_of_empty nothing] at passed
  cases passed

/-- Beneath a root that is resolved a path leads where its course leads from there. -/
theorem LinkFree.locate_join {limit : Option Nat} {root beneath : Path} {above place : Location}
    (rooted : disk.locate limit root = .ok above)
    (located : disk.locate limit (root.join beneath) = .ok place) :
    place = (Course.ofNames beneath.pieces).placeFrom above := by
  obtain ⟨ne_nil, turns⟩ := linkFree.foldl_pieces rooted
  obtain ⟨-, joined⟩ := linkFree.foldl_pieces located
  obtain ⟨front, spelled, pieces⟩ := Path.pieces_join ne_nil beneath
  have start : startOf disk.workingDirectory (root.join beneath) =
      startOf disk.workingDirectory root := by
    rw [startOf, startOf, Path.isAbsolute_join ne_nil]
  have reached : front.foldl turn (startOf disk.workingDirectory root) = above := by
    rcases spelled with spelled | spelled
    · rwa [spelled] at turns
    · rw [spelled, List.foldl_append] at turns
      exact turns
  rw [← foldl_turn, ← reached, ← joined, pieces, start, List.foldl_append]

end LinkFree

section Beneath

variable {disk : Disk} (sound : disk.Sound)
include sound

theorem Sound.names_pathOf {place : Location} {node : Node}
    (stands : disk.node? place = some node) : (pathOf place).names = place := by
  cases place with
  | nil => rfl
  | cons name place =>
      rw [Path.names, sound.pieces_pathOf stands (List.cons_ne_nil name place),
        List.filter_cons_of_neg (by simp), List.filter_eq_self]
      exact fun name listed => decide_eq_true (sound.named _ _ stands name listed).ne_nil

/-- A file lies beneath a directory just where the names down to the directory start its own. -/
theorem Sound.liesBeneath_iff {above place : Location} {content : List UInt8}
    (directory : disk.node? above = some .directory)
    (stands : disk.node? place = some (.file content)) :
    (pathOf place).LiesBeneath (pathOf above) ↔ above <+: place := by
  rw [Path.LiesBeneath, sound.names_pathOf directory, sound.names_pathOf stands]
  refine and_iff_left_of_imp fun _ same => ?_
  rw [same, stands] at directory
  cases directory

/-- A path that is resolved to the path of a place is located there. -/
theorem Sound.locate_of_realpath {path : Path} {place : Location} {node : Node}
    (stands : disk.node? place = some node) (resolved : disk.realpath path = .ok (pathOf place)) :
    disk.locate (some maxSpelling) path = .ok place := by
  rw [realpath] at resolved
  cases located : disk.locate (some maxSpelling) path with
  | error cause =>
      rw [located] at resolved
      cases resolved
  | ok other =>
      have ends := sound.ends_locate (checked_of_locate located)
      rw [located] at resolved ends
      obtain ⟨found, here⟩ : ∃ found, disk.node? other = some found := by
        cases ends.1 with
        | directory here | file here => exact ⟨_, here⟩
      rw [pathOf_injective (sound.named _ _ here) (sound.named _ _ stands)
        (Except.ok.inj resolved)]

/-- A source that is found stands where its course leads from the root.  It lies beneath the root
just where it goes down again the names that it went up, which it does if it never asks for the
directory above. -/
theorem Sound.findSource_follows_course (linkFree : disk.LinkFree) {root path : Path}
    {above : Location} {source tag : String} (resolved : disk.realpath root = .ok (pathOf above))
    (directory : disk.node? above = some .directory)
    (found : disk.fileSystem.findSource root source tag = .ok path) :
    let names := (Path.ofText (FileSystem.stripSeparators source)).pieces
    let course := Course.ofNames names
    path = pathOf (course.placeFrom above) ∧
      (path.LiesBeneath (pathOf above) ↔
        above.drop (above.length - course.up) <+: course.down) ∧
      (Path.directoryAbove ∉ names → path.LiesBeneath (pathOf above)) := by
  intro names course
  obtain ⟨place, content, -, rfl, stands, -⟩ := sound.exists_of_findSource found
  have joined := (FileSystem.findSource_iff.1 _ |>.mp found).1
  have follows : place = course.placeFrom above :=
    linkFree.locate_join (sound.locate_of_realpath directory resolved)
      (sound.locate_of_realpath stands joined)
  have beneath : (pathOf place).LiesBeneath (pathOf above) ↔
      above.drop (above.length - course.up) <+: course.down := by
    rw [sound.liesBeneath_iff directory stands, follows, Course.placeFrom]
    nth_rewrite 1 [← List.take_append_drop (above.length - course.up) above]
    exact List.prefix_append_right_inj _
  refine ⟨congrArg pathOf follows, beneath, fun level => beneath.mpr ?_⟩
  rw [Course.up_ofNames level, Nat.sub_zero, List.drop_length]
  exact List.nil_prefix

omit sound

/-- A source that goes up and down again to its root lies beneath it. -/
theorem Sound.findSource_follows_course_around :
    let disk : Disk :=
      { workingDirectory := [Utf8.encode "r"],
        entries := [([Utf8.encode "r"], .directory),
          ([Utf8.encode "r", Utf8.encode "a.lua"], .file [])] }
    let above := [Utf8.encode "r"]
    let path := pathOf [Utf8.encode "r", Utf8.encode "a.lua"]
    disk.Sound ∧ disk.LinkFree ∧ disk.realpath (.ofText ".") = .ok (pathOf above) ∧
      disk.node? above = some .directory ∧
      disk.fileSystem.findSource (.ofText ".") "/../r/a.lua" "/../r/a.lua:1" = .ok path ∧
      path.LiesBeneath (pathOf above) := by
  intro disk above path
  have sound : disk.Sound := sound_of_entries (by decide +kernel) (by decide +kernel)
  have linkFree : disk.LinkFree := linkFree_of_entries (by simp [disk])
  have resolved : disk.realpath (.ofText ".") = .ok (pathOf above) := by cbv
  have directory : disk.node? above = some .directory := by decide +kernel
  have reached : disk.realpath (.ofText "./../r/a.lua") = .ok path := by cbv
  have stands : disk.node? [Utf8.encode "r", Utf8.encode "a.lua"] = some (.file []) := by
    decide +kernel
  have found : disk.fileSystem.findSource (.ofText ".") "/../r/a.lua" "/../r/a.lua:1" = .ok path :=
    sound.findSource_of_realpath (by decide +kernel) reached stands
  obtain ⟨-, beneath, -⟩ := sound.findSource_follows_course linkFree resolved directory found
  exact ⟨sound, linkFree, resolved, directory, found, beneath.mpr (by decide +kernel)⟩

/-- With two dots a source leads out of its root. -/
theorem findSource_leaves_root :
    let disk : Disk :=
      { workingDirectory := [],
        entries := [([Utf8.encode "r"], .directory), ([Utf8.encode "s.lua"], .file [])] }
    let above := [Utf8.encode "r"]
    let path := pathOf [Utf8.encode "s.lua"]
    disk.Sound ∧ disk.LinkFree ∧ disk.realpath (.ofText "/r") = .ok (pathOf above) ∧
      disk.node? above = some .directory ∧
      disk.fileSystem.findSource (.ofText "/r") "../s.lua" "../s.lua:1" = .ok path ∧
      ¬path.LiesBeneath (pathOf above) := by
  intro disk above path
  have sound : disk.Sound := sound_of_entries (by decide +kernel) (by decide +kernel)
  have linkFree : disk.LinkFree := linkFree_of_entries (by simp [disk])
  have resolved : disk.realpath (.ofText "/r") = .ok (pathOf above) := by cbv
  have reached : disk.realpath (.ofText "/r/../s.lua") = .ok path := by cbv
  have stands : disk.node? [Utf8.encode "s.lua"] = some (.file []) := by decide +kernel
  have found : disk.fileSystem.findSource (.ofText "/r") "../s.lua" "../s.lua:1" = .ok path :=
    sound.findSource_of_realpath (by decide +kernel) reached stands
  exact ⟨sound, linkFree, resolved, by decide +kernel, found, by decide +kernel⟩

end Beneath
end Disk
end LuaCoverage
