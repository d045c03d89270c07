import LuaCoverage.FileSystem.Disk

/-!
# Writing files

A file is written at the place that its path leads to.  Reading the path gives back what was
written, nothing changes at other places, and every path that led somewhere still leads there.
-/

namespace LuaCoverage
namespace Disk

theorem not_exceeds_none (location : Location) (size : Nat) : ¬exceeds none location size = true :=
  Bool.false_ne_true

/-- The way goes on where something stands, and past a file only if no directory is asked for. -/
theorem obstacle?_eq_none_iff {disk : Disk} {limit : Option Nat} {here : Location} {name : Name}
    {rest : List Name} :
    disk.obstacle? limit here name rest = none ↔
      ¬(askDirectory rest && exceeds limit (here ++ [name]) 1) = true ∧
      ∃ node, disk.node? (here ++ [name]) = some node ∧
        ∀ content, node = .file content → askDirectory rest = false := by
  rw [obstacle?]
  split
  · next tooLong => simp [tooLong]
  · next fits =>
      rw [and_iff_right fits]
      cases stands : disk.node? (here ++ [name]) with
      | none => simp
      | some node => cases node <;> simp

section Steps

variable {disk : Disk} {limit : Option Nat} {links : Nat} {here : Location} {name : Name}
  {rest : List Name}

theorem walk_stays (skipped : stays name = true) :
    disk.walk limit links here (name :: rest) = disk.walk limit links here rest := by
  rw [walk.eq_def]
  dsimp only
  rw [if_pos skipped]

theorem walk_above (moves : ¬stays name = true) (above : (name == Path.directoryAbove) = true) :
    disk.walk limit links here (name :: rest) = disk.walk limit links here.dropLast rest := by
  rw [walk.eq_def]
  dsimp only
  rw [if_neg moves, if_pos above]

variable (moves : ¬stays name = true) (below : ¬(name == Path.directoryAbove) = true)
  (fits : ¬exceeds limit (here ++ [name]) 0 = true)
include moves below fits

theorem walk_link {target : Path} (linked : disk.node? (here ++ [name]) = some (.link target)) :
    disk.walk limit (links + 1) here (name :: rest) =
      disk.walk limit links (startOf here target) (target.pieces ++ rest) := by
  rw [walk.eq_def]
  dsimp only
  rw [if_neg moves, if_neg below, if_neg fits, linked]

theorem walk_name (unlinked : ∀ target, disk.node? (here ++ [name]) ≠ some (.link target))
    (free : disk.obstacle? limit here name rest = none) :
    disk.walk limit links here (name :: rest) = disk.walk limit links (here ++ [name]) rest := by
  rw [walk, if_neg moves, if_neg below, if_neg fits, free]
  · exact fun target linked _ => unlinked target linked
  · exact fun target _ linked _ => unlinked target linked

omit fits

theorem walk_directory (stands : disk.node? (here ++ [name]) = some .directory) :
    disk.walk none links here (name :: rest) = disk.walk none links (here ++ [name]) rest := by
  apply walk_name moves below (not_exceeds_none _ _)
  · simp [stands]
  · rw [obstacle?_eq_none_iff]
    exact ⟨by simp [exceeds], .directory, stands, by simp⟩

theorem walk_file {content : List UInt8}
    (stands : disk.node? (here ++ [name]) = some (.file content)) :
    disk.walk none links here [name] = .ok (here ++ [name]) := by
  rw [walk_name moves below (not_exceeds_none _ _), walk]
  · simp [stands]
  · rw [obstacle?_eq_none_iff]
    exact ⟨by simp [exceeds], .file content, stands, fun _ _ => rfl⟩

end Steps

/-- A place where a file may be written: a file stands there or nothing does. -/
structure Writable (disk : Disk) (place : Location) : Prop where
  /-- It is not the root. -/
  named : place ≠ []
  /-- Neither a directory nor a link stands there. -/
  free : ∀ node : Node, disk.node? place = some node → ∃ content, node = .file content

theorem Writable.ne {disk : Disk} {place other : Location} {node : Node}
    (writable : disk.Writable place) (stands : disk.node? other = some node)
    (different : ∀ content, node ≠ .file content) : other ≠ place := by
  rintro rfl
  obtain ⟨content, same⟩ := writable.free node stands
  exact different content same

theorem lookup_filter_ne {place other : Location} (ne : other ≠ place)
    (entries : List (Location × Node)) :
    (entries.filter (·.1 != place)).lookup other = entries.lookup other := by
  induction entries with
  | nil => rfl
  | cons entry entries ih =>
      by_cases same : entry.1 = place
      · have dropped : (entry.1 != place) = false := by simpa using same
        have apart : (other == entry.1) = false := by simpa [same] using ne
        rw [List.filter_cons_of_neg (by simp [dropped]), ih, List.lookup_cons, apart]
      · rw [List.filter_cons_of_pos (by simpa using same), List.lookup_cons, List.lookup_cons, ih]

theorem node?_put (disk : Disk) {place : Location} (named : place ≠ []) (node : Node) :
    (disk.put place node).node? place = some node := by
  simp [node?, put, named]

theorem node?_put_of_ne (disk : Disk) {place other : Location} (ne : other ≠ place) (node : Node) :
    (disk.put place node).node? other = disk.node? other := by
  have apart : (other == place) = false := by simpa using ne
  simp [node?, put, List.lookup_cons, apart, lookup_filter_ne ne]

section Put

variable {disk : Disk} {place here : Location} {limit : Option Nat} {links : Nat}
  {names : List Name} {content : List UInt8}

/-- Looking for a place to write ends at a name behind which there is nothing or a file. -/
theorem writable_of_destination (reached : disk.destination links here names = .ok place) :
    disk.Writable place := by
  fun_induction destination disk links here names with
  | case1 => cases reached
  | case2 _ _ _ _ _ ih => exact ih reached
  | case3 _ _ _ _ _ _ ih => exact ih reached
  | case4 => cases reached
  | case5 _ _ _ _ _ _ _ absent =>
      cases reached
      refine ⟨by simp, fun node stands => ?_⟩
      rw [absent] at stands
      cases stands
  | case6 => cases reached
  | case7 _ _ _ _ _ _ _ _ ih => exact ih reached
  | case8 _ _ _ _ _ _ _ content present =>
      cases reached
      refine ⟨by simp, fun node stands => ?_⟩
      rw [present] at stands
      cases stands
      exact ⟨content, rfl⟩
  | case9 => cases reached
  | case10 => cases reached
  | case11 _ _ _ _ _ _ _ _ _ ih => exact ih reached

theorem obstacle?_put (writable : disk.Writable place) (content : List UInt8) {name : Name}
    {rest : List Name} (free : disk.obstacle? limit here name rest = none) :
    (disk.put place (.file content)).obstacle? limit here name rest = none := by
  obtain ⟨fits, node, stands, passes⟩ := obstacle?_eq_none_iff.mp free
  refine obstacle?_eq_none_iff.mpr ⟨fits, ?_⟩
  by_cases same : here ++ [name] = place
  · obtain ⟨old, rfl⟩ := writable.free node (same ▸ stands)
    refine ⟨.file content, ?_, fun _ _ => passes old rfl⟩
    rw [same, node?_put disk writable.named]
  · refine ⟨node, ?_, passes⟩
    rw [node?_put_of_ne disk same, stands]

/-- Where a file is put, paths that lead somewhere still lead there: one that ends at this very
place found a file there before. -/
theorem walk_put (writable : disk.Writable place) (content : List UInt8) {location : Location}
    (reached : disk.walk limit links here names = .ok location) :
    (disk.put place (.file content)).walk limit links here names = .ok location := by
  fun_induction walk disk limit links here names with
  | case1 => rw [walk]; exact reached
  | case2 _ _ _ _ skipped ih => rw [walk_stays skipped]; exact ih reached
  | case3 _ _ _ _ moves above ih => rw [walk_above moves above]; exact ih reached
  | case4 => cases reached
  | case5 => cases reached
  | case6 here name rest moves below fits target links linked ih =>
      have ne := writable.ne linked nofun
      rw [walk_link moves below fits ((node?_put_of_ne disk ne _).trans linked)]
      exact ih reached
  | case7 => cases reached
  | case8 here name rest moves below fits links free loop follow ih =>
      rw [walk_name moves below fits ?_ (obstacle?_put writable content free)]
      · exact ih reached
      · intro target linked
        by_cases same : here ++ [name] = place
        · rw [same, node?_put disk writable.named] at linked
          cases linked
        · rw [node?_put_of_ne disk same] at linked
          cases links with
          | zero => exact loop target linked rfl
          | succ links => exact follow target links linked rfl

/-- Looking for a place to write and following a path go the same way once a file stands there. -/
theorem walk_of_destination (reached : disk.destination links here names = .ok place)
    (content : List UInt8) :
    (disk.put place (.file content)).walk none links here names = .ok place := by
  have writable := writable_of_destination reached
  fun_induction destination disk links here names with
  | case1 => cases reached
  | case2 _ _ _ _ skipped ih => rw [walk_stays skipped]; exact ih reached
  | case3 _ _ _ _ moves above ih => rw [walk_above moves above]; exact ih reached
  | case4 => cases reached
  | case5 _ here name rest moves below _ _ last =>
      obtain rfl : rest = [] := by simp_all
      cases reached
      exact walk_file moves below (node?_put disk writable.named _)
  | case6 => cases reached
  | case7 _ here name rest moves below _ stands ih =>
      have ne := writable.ne stands nofun
      rw [walk_directory moves below ((node?_put_of_ne disk ne _).trans stands)]
      exact ih reached
  | case8 _ here name rest moves below _ old _ last =>
      obtain rfl : rest = [] := List.isEmpty_iff.mp last
      cases reached
      exact walk_file moves below (node?_put disk writable.named _)
  | case9 => cases reached
  | case10 => cases reached
  | case11 here name rest moves below _ target linked links ih =>
      have ne := writable.ne linked nofun
      rw [walk_link moves below (not_exceeds_none _ _) ((node?_put_of_ne disk ne _).trans linked)]
      exact ih reached

theorem checked_eq {path other : Path} (passed : checked path = .ok other) : other = path := by
  rw [checked] at passed
  split at passed
  · cases passed
  · split at passed
    · cases passed
    · cases passed
      rfl

theorem openable_eq {path other : Path} (opened : openable path = .ok other) :
    checked path = .ok path ∧ other = path := by
  rw [openable] at opened
  cases passed : checked path with
  | error error =>
      rw [passed] at opened
      cases opened
  | ok same =>
      obtain rfl := checked_eq passed
      rw [passed] at opened
      simp only [bind, Except.bind] at opened
      split at opened
      · cases opened
      · cases opened
        exact ⟨rfl, rfl⟩

theorem locate_of_checked {path : Path} (passed : checked path = .ok path) :
    disk.locate limit path =
      disk.walk limit maxLinks (startOf disk.workingDirectory path) path.pieces := by
  rw [locate, passed]
  rfl

theorem checked_of_locate {path : Path} (located : disk.locate limit path = .ok place) :
    checked path = .ok path := by
  cases passed : checked path with
  | error cause =>
      rw [locate, passed] at located
      cases located
  | ok same => rw [checked_eq passed]

theorem locate_put (writable : disk.Writable place) (content : List UInt8) {path : Path}
    {location : Location} (reached : disk.locate limit path = .ok location) :
    (disk.put place (.file content)).locate limit path = .ok location := by
  have passed := checked_of_locate reached
  rw [locate_of_checked passed] at reached ⊢
  exact walk_put writable content reached

theorem read_eq_ok_iff {path : Path} :
    disk.read path = .ok content ↔
      openable path = .ok path ∧ ∃ location, disk.locate none path = .ok location ∧
        disk.node? location = some (.file content) := by
  cases opened : openable path with
  | error error => simp [read, opened, bind, Except.bind]
  | ok same =>
      obtain rfl := (openable_eq opened).2
      cases reached : disk.locate none same with
      | error error => simp [read, opened, reached, bind, Except.bind]
      | ok location =>
          simp only [read, opened, reached, bind, Except.bind, true_and, Except.ok.injEq,
            exists_eq_left']
          split
          · next old stands => simp [stands]
          · next other => exact iff_of_false nofun (other content)

/-- A disk after a file was written at a place. -/
structure WrittenAt (before after : Disk) (place : Location) (content : List UInt8) : Prop where
  /-- A file may be written there: no directory and no link is replaced. -/
  writable : before.Writable place
  /-- The file stands at the place. -/
  node?_eq : after.node? place = some (.file content)
  /-- At other places stands what stood there. -/
  elsewhere : ∀ other : Location, other ≠ place → after.node? other = before.node? other
  /-- Relative paths start where they did. -/
  workingDirectory : after.workingDirectory = before.workingDirectory
  /-- Paths that led somewhere still lead there. -/
  locate : ∀ (limit : Option Nat) (path : Path) (location : Location),
    before.locate limit path = .ok location → after.locate limit path = .ok location
  /-- All other files read as before. -/
  read : ∀ (path : Path) (old : List UInt8), before.read path = .ok old →
    before.locate none path = .ok place ∨ after.read path = .ok old

theorem writtenAt_put (writable : disk.Writable place) (content : List UInt8) :
    disk.WrittenAt (disk.put place (.file content)) place content where
  writable := writable
  node?_eq := node?_put disk writable.named _
  elsewhere _ ne := node?_put_of_ne disk ne _
  workingDirectory := rfl
  locate _ _ _ reached := locate_put writable content reached
  read path old readable := by
    obtain ⟨opened, location, reached, stands⟩ := read_eq_ok_iff.mp readable
    by_cases same : location = place
    · left
      rw [reached, same]
    · right
      refine read_eq_ok_iff.mpr ⟨opened, location, locate_put writable content reached, ?_⟩
      rw [node?_put_of_ne disk same, stands]

theorem read_put {path : Path} (led : disk.locateForWriting path = .ok place)
    (content : List UInt8) :
    disk.Writable place ∧ (disk.put place (.file content)).read path = .ok content := by
  cases opened : openable path with
  | error error =>
      rw [locateForWriting, opened] at led
      cases led
  | ok same =>
      obtain ⟨passed, rfl⟩ := openable_eq opened
      rw [locateForWriting, opened] at led
      have reached := walk_of_destination led content
      have writable := writable_of_destination led
      refine ⟨writable, read_eq_ok_iff.mpr ⟨opened, place, ?_, node?_put disk writable.named _⟩⟩
      rw [locate_of_checked passed]
      exact reached

/-- Writing changes the place that the path leads to and nothing else, and the path then reads as
what was written. -/
theorem exists_write_of_locateForWriting {path : Path}
    (led : disk.locateForWriting path = .ok place) (content : List UInt8) :
    ∃ after, disk.write path content = .ok after ∧ disk.WrittenAt after place content ∧
      after.read path = .ok content := by
  obtain ⟨writable, reads⟩ := read_put led content
  refine ⟨disk.put place (.file content), ?_, writtenAt_put writable content, reads⟩
  rw [write, led]
  rfl

end Put
end Disk
end LuaCoverage
