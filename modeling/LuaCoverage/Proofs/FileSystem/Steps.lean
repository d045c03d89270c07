import LuaCoverage.FileSystem.Disk
import Mathlib.Logic.Relation

/-!
# Steps along a path

A path is followed in steps.  Empty names and single dots change nothing, two dots lead to the
directory above, a link is replaced by its target, a directory is entered, and a file may only be
the end.  What stands on the disk decides each step, so that a path leads to one place at most.
-/

namespace LuaCoverage

/-- A name of its own: not empty, and neither one dot nor two. -/
structure Name.IsOrdinary (name : Name) : Prop where
  /-- It has an octet. -/
  ne_nil : name ≠ []
  /-- It is not the name for the same directory. -/
  ne_same : name ≠ Path.sameDirectory
  /-- It is not the name for the directory above. -/
  ne_above : name ≠ Path.directoryAbove

/-- A name that an entry of a directory can have. -/
structure Name.IsEntry (name : Name) : Prop extends Name.IsOrdinary name where
  /-- No separator is part of it. -/
  plain : Path.separator ∉ name
  /-- No NUL is part of it. -/
  noNul : (0 : UInt8) ∉ name

theorem Name.isEntry_iff {name : Name} : Name.IsEntry name ↔
    (name ≠ [] ∧ name ≠ Path.sameDirectory ∧ name ≠ Path.directoryAbove) ∧
      Path.separator ∉ name ∧ (0 : UInt8) ∉ name := by
  constructor
  · exact fun entry =>
      ⟨⟨entry.ne_nil, entry.ne_same, entry.ne_above⟩, entry.plain, entry.noNul⟩
  · rintro ⟨⟨ne_nil, ne_same, ne_above⟩, plain, noNul⟩
    exact ⟨⟨ne_nil, ne_same, ne_above⟩, plain, noNul⟩

instance (name : Name) : Decidable (Name.IsEntry name) := decidable_of_iff' _ Name.isEntry_iff

namespace Disk

/-- A disk of directories, files and links: every entry has a name and stands in a directory. -/
structure Sound (disk : Disk) : Prop where
  /-- Entries have names. -/
  named : ∀ (place : Location) (node : Node), disk.node? place = some node →
    ∀ name ∈ place, Name.IsEntry name
  /-- Entries stand in directories. -/
  rooted : ∀ (here : Location) (name : Name) (node : Node),
    disk.node? (here ++ [name]) = some node → disk.node? here = some .directory
  /-- Relative paths start in a directory. -/
  started : disk.node? disk.workingDirectory = some .directory

/-- What stands below the root is a line of the table. -/
theorem mem_entries_of_node? {disk : Disk} {place : Location} {node : Node} (below : place ≠ [])
    (stands : disk.node? place = some node) : (place, node) ∈ disk.entries := by
  rw [node?, if_neg (mt List.isEmpty_iff.mp below), List.lookup_eq_some_iff] at stands
  obtain ⟨before, behind, split, -⟩ := stands
  rw [split]
  exact List.mem_append_right before List.mem_cons_self

/-- A disk is sound where every line of its table has names and stands in a directory. -/
theorem sound_of_entries {disk : Disk}
    (lines : ∀ entry ∈ disk.entries, (∀ name ∈ entry.1, Name.IsEntry name) ∧
      disk.node? entry.1.dropLast = some .directory)
    (started : disk.node? disk.workingDirectory = some .directory) : disk.Sound where
  named place node stands name listed :=
    (lines _ (mem_entries_of_node? (List.ne_nil_of_mem listed) stands)).1 name listed
  rooted here name node stands := by
    have above := (lines _ (mem_entries_of_node? (List.concat_ne_nil name here) stands)).2
    rwa [List.dropLast_concat] at above
  started := started

/-- How far a path has been followed. -/
structure Stage where
  /-- Number of links followed so far. -/
  links : Nat
  /-- The place arrived at. -/
  here : Location
  /-- Names still to be followed. -/
  rest : List Name

/-- One step along a path. -/
inductive Step (disk : Disk) : Stage → Stage → Prop
  /-- Nothing and a single dot stand for the same directory. -/
  | stay {links : Nat} {here : Location} {name : Name} {rest : List Name}
      (same : name = [] ∨ name = Path.sameDirectory) :
      Step disk ⟨links, here, name :: rest⟩ ⟨links, here, rest⟩
  /-- Two dots lead to the directory above, and from the root to itself. -/
  | above {links : Nat} {here : Location} {rest : List Name} :
      Step disk ⟨links, here, Path.directoryAbove :: rest⟩ ⟨links, here.dropLast, rest⟩
  /-- A link is replaced by its target, seen from the directory where the link stands. -/
  | link {links : Nat} {here : Location} {name : Name} {rest : List Name} {target : Path}
      (ordinary : name.IsOrdinary) (stands : disk.node? (here ++ [name]) = some (.link target)) :
      Step disk ⟨links, here, name :: rest⟩
        ⟨links + 1, startOf here target, target.pieces ++ rest⟩
  /-- A directory is entered. -/
  | enter {links : Nat} {here : Location} {name : Name} {rest : List Name}
      (ordinary : name.IsOrdinary) (stands : disk.node? (here ++ [name]) = some .directory) :
      Step disk ⟨links, here, name :: rest⟩ ⟨links, here ++ [name], rest⟩
  /-- A file is the end of a path. -/
  | file {links : Nat} {here : Location} {name : Name} {content : List UInt8}
      (ordinary : name.IsOrdinary)
      (stands : disk.node? (here ++ [name]) = some (.file content)) :
      Step disk ⟨links, here, [name]⟩ ⟨links, here ++ [name], []⟩

/-- The path of a place, with names behind it, is longer than a path may be. -/
def TooLong (here : Location) (rest : List Name) : Prop :=
  maxSpelling < (pathOf here).octets.length + (rest.flatMap (Path.separator :: ·)).length

/-- What hinders the next step, and how it is reported. -/
inductive Hinders (disk : Disk) : IoError → Stage → Prop
  /-- Nothing has the name in the directory. -/
  | missing {links : Nat} {here : Location} {name : Name} {rest : List Name}
      (directory : disk.node? here = some .directory)
      (absent : disk.node? (here ++ [name]) = none) (ordinary : name.IsOrdinary)
      (short : name.length ≤ maxNameLength) :
      Hinders disk .notFound ⟨links, here, name :: rest⟩
  /-- Something follows a file. -/
  | file {links : Nat} {here : Location} {name : Name} {rest : List Name} {content : List UInt8}
      (ordinary : name.IsOrdinary)
      (stands : disk.node? (here ++ [name]) = some (.file content)) (more : rest ≠ []) :
      Hinders disk .notDirectory ⟨links, here, name :: rest⟩
  /-- Another link follows the greatest number of them. -/
  | loop {here : Location} {name : Name} {rest : List Name} {target : Path}
      (ordinary : name.IsOrdinary) (stands : disk.node? (here ++ [name]) = some (.link target)) :
      Hinders disk .linkLoop ⟨maxLinks, here, name :: rest⟩
  /-- A name is too long. -/
  | longName {links : Nat} {here : Location} {name : Name} {rest : List Name}
      (long : maxNameLength < name.length) :
      Hinders disk .nameTooLong ⟨links, here, name :: rest⟩
  /-- The path of the place is too long, with the names behind it. -/
  | longPath {links : Nat} {here : Location} {rest : List Name}
      (long : TooLong here rest) : Hinders disk .nameTooLong ⟨links, here, rest⟩

/-- Where a path begins to be followed. -/
def begin (disk : Disk) (path : Path) : Stage :=
  ⟨0, startOf disk.workingDirectory path, path.pieces⟩

/-- A path leads to a place. -/
structure LeadsTo (disk : Disk) (path : Path) (place : Location) : Prop where
  /-- The path is not empty. -/
  ne_nil : path.octets ≠ []
  /-- No NUL is part of the path. -/
  noNul : (0 : UInt8) ∉ path.octets
  /-- Steps along it end at the place. -/
  steps : ∃ links, Relation.ReflTransGen disk.Step (disk.begin path) ⟨links, place, []⟩

/-- A path fails to lead anywhere, for a reason. -/
inductive Fails (disk : Disk) (path : Path) : IoError → Prop
  /-- A NUL is part of the path. -/
  | nul (inside : (0 : UInt8) ∈ path.octets) : Fails disk path .nulInPath
  /-- The path is empty. -/
  | empty (nothing : path.octets = []) : Fails disk path .notFound
  /-- Something hinders a step along it. -/
  | hindered {cause : IoError} {stage : Stage} (noNul : (0 : UInt8) ∉ path.octets)
      (steps : Relation.ReflTransGen disk.Step (disk.begin path) stage)
      (hinders : disk.Hinders cause stage) : Fails disk path cause

/-! ## Steps are determined -/

section Steps

variable {disk : Disk}

theorem not_isOrdinary_of_same {name : Name} (same : name = [] ∨ name = Path.sameDirectory) :
    ¬name.IsOrdinary :=
  fun ordinary => same.elim ordinary.ne_nil ordinary.ne_same

theorem ne_above_of_same {name : Name} (same : name = [] ∨ name = Path.sameDirectory) :
    name ≠ Path.directoryAbove := by
  rcases same with rfl | rfl <;> decide

/-- What stands behind the first name decides the step. -/
theorem step_rightUnique : Relator.RightUnique disk.Step := by
  intro stage first second one other
  cases one with
  | stay same =>
      cases other with
      | stay => rfl
      | above => exact absurd rfl (ne_above_of_same same)
      | link ordinary | enter ordinary | file ordinary =>
          exact absurd ordinary (not_isOrdinary_of_same same)
  | above =>
      cases other with
      | stay same => exact absurd rfl (ne_above_of_same same)
      | above => rfl
      | link ordinary | enter ordinary | file ordinary => exact absurd rfl ordinary.ne_above
  | link ordinary stands =>
      cases other with
      | stay same => exact absurd ordinary (not_isOrdinary_of_same same)
      | above => exact absurd rfl ordinary.ne_above
      | link _ also => cases stands.symm.trans also; rfl
      | enter _ also | file _ also => cases stands.symm.trans also
  | enter ordinary stands =>
      cases other with
      | stay same => exact absurd ordinary (not_isOrdinary_of_same same)
      | above => exact absurd rfl ordinary.ne_above
      | link _ also | file _ also => cases stands.symm.trans also
      | enter => rfl
  | file ordinary stands =>
      cases other with
      | stay same => exact absurd ordinary (not_isOrdinary_of_same same)
      | above => exact absurd rfl ordinary.ne_above
      | link _ also | enter _ also => cases stands.symm.trans also
      | file => rfl

/-- Nothing follows where all names are followed. -/
theorem eq_of_steps_from_end {links : Nat} {place : Location} {stage : Stage}
    (steps : Relation.ReflTransGen disk.Step ⟨links, place, []⟩ stage) :
    stage = ⟨links, place, []⟩ := by
  rcases steps.cases_head with same | ⟨_, step, -⟩
  · exact same.symm
  · cases step

/-- Steps from one stage lead to one end. -/
theorem steps_to_end_of_steps {start stage : Stage} {links : Nat} {place : Location}
    (ends : Relation.ReflTransGen disk.Step start ⟨links, place, []⟩)
    (steps : Relation.ReflTransGen disk.Step start stage) :
    Relation.ReflTransGen disk.Step stage ⟨links, place, []⟩ := by
  rcases ends.total_of_right_unique step_rightUnique steps with beyond | before
  · rw [eq_of_steps_from_end beyond]
  · exact before

/-- A path leads to one place at most. -/
theorem LeadsTo.unique {path : Path} {place other : Location} (leads : disk.LeadsTo path place)
    (also : disk.LeadsTo path other) : place = other := by
  obtain ⟨links, steps⟩ := leads.steps
  obtain ⟨more, ends⟩ := also.steps
  have same := eq_of_steps_from_end (steps_to_end_of_steps ends steps)
  exact congrArg Stage.here same.symm

end Steps

end Disk
end LuaCoverage
