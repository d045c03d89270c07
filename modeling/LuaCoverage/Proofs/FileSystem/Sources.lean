import LuaCoverage.Proofs.FileSystem.Canonical
import LuaCoverage.Proofs.Text.Utf8
import Mathlib

/-!
# Looking up sources on a disk

A source is looked up where its path leads beneath the root.  Each way in which this path resolves
has its own outcome, separators in front of the source change nothing, and the path of a source that
is found is resolved and found again as it stands.  So two sources have the same path just where
they lead to the same entry of the disk.
-/

namespace LuaCoverage

namespace FileSystem

section Outcomes

variable {system : FileSystem} {root : Path} {source tag : String}

theorem findSource_of_ok {path : Path}
    (resolved : system.realpath (lookupPath root source) = .ok path) :
    system.findSource root source tag =
      match system.isFile path with
      | .error cause => .error (.unresolvedPath tag path cause)
      | .ok false => .error (.irregularSource tag path)
      | .ok true => .ok path := by
  rcases kind : system.isFile path with cause | _ | _ <;> simp only [findSource, resolved, kind]

theorem findSource_of_notFound
    (failed : system.realpath (lookupPath root source) = .error .notFound) :
    system.findSource root source tag = .error (.missingSource tag (lookupPath root source)) := by
  rw [findSource, failed]

theorem findSource_of_error {cause : IoError}
    (failed : system.realpath (lookupPath root source) = .error cause) (other : cause ≠ .notFound) :
    system.findSource root source tag =
      .error (.unresolvedPath tag (lookupPath root source) cause) := by
  cases cause with
  | notFound => exact absurd rfl other
  | _ => rw [findSource, failed]

/-- Every outcome of looking up a source comes of one way in which its path resolves and in which
the resolved path answers. -/
theorem findSource_iff :
    (∀ path, system.findSource root source tag = .ok path ↔
      system.realpath (lookupPath root source) = .ok path ∧ system.isFile path = .ok true) ∧
    (∀ path, system.findSource root source tag = .error (.irregularSource tag path) ↔
      system.realpath (lookupPath root source) = .ok path ∧ system.isFile path = .ok false) ∧
    (∀ path, system.findSource root source tag = .error (.missingSource tag path) ↔
      path = lookupPath root source ∧ system.realpath path = .error .notFound) ∧
    ∀ path cause, system.findSource root source tag = .error (.unresolvedPath tag path cause) ↔
      (path = lookupPath root source ∧ system.realpath path = .error cause ∧
        cause ≠ .notFound) ∨
      (system.realpath (lookupPath root source) = .ok path ∧
        system.isFile path = .error cause) := by
  cases resolved : system.realpath (lookupPath root source) with
  | ok path =>
      rw [findSource_of_ok resolved]
      rcases answer : system.isFile path with cause | (_ | _) <;> grind
  | error cause =>
      by_cases missing : cause = .notFound
      · subst missing
        rw [findSource_of_notFound resolved]
        grind
      · rw [findSource_of_error resolved missing]
        grind

end Outcomes

/-- Separators in front of a source are left aside. -/
theorem stripSeparators_append {separators : String}
    (only : ∀ character ∈ separators.toList, character = '/' ∨ character = '\\')
    (source : String) : stripSeparators (separators ++ source) = stripSeparators source := by
  rw [stripSeparators, stripSeparators, String.toList_append, List.dropWhile_append_of_pos]
  intro character listed
  rcases only character listed with rfl | rfl <;> rfl

theorem findSource_append {separators : String}
    (only : ∀ character ∈ separators.toList, character = '/' ∨ character = '\\')
    (system : FileSystem) (root : Path) (source tag : String) :
    system.findSource root (separators ++ source) tag = system.findSource root source tag := by
  rw [findSource, findSource, lookupPath, lookupPath, stripSeparators_append only]

/-- The octet of a backslash. -/
def backslash : UInt8 := 0x5C

theorem stripSeparators_of_slash {text : String} {characters : List Char}
    (spelled : text.toList = '/' :: characters)
    (plain : ∀ character, characters.head? = some character →
      character ≠ '/' ∧ character ≠ '\\') :
    stripSeparators text = String.ofList characters := by
  rw [stripSeparators, spelled, List.dropWhile_cons_of_pos (by rfl)]
  cases characters with
  | nil => rfl
  | cons character characters =>
      obtain ⟨notSlash, notBackslash⟩ := plain character rfl
      rw [List.dropWhile_cons_of_neg (by simp [notSlash, notBackslash])]

/-- Beneath the root directory, an absolute path is looked up as it stands. -/
theorem lookupPath_of_absolute {path : Path} {octet : UInt8} {octets : List UInt8}
    (absolute : path.octets = Path.separator :: octet :: octets)
    (plain : octet ≠ Path.separator ∧ octet ≠ backslash) {text : String}
    (spelled : path = Path.ofText text) : lookupPath ⟨[Path.separator]⟩ text = path := by
  have encoded : Utf8.encode text = Path.separator :: octet :: octets := by
    rw [← absolute, spelled, Path.ofText]
  obtain ⟨characters, read⟩ : ∃ characters, text.toList = '/' :: characters := by
    refine ⟨Utf8.decodeFrom none (octet :: octets), ?_⟩
    rw [← Utf8.decode_encode text, encoded, Utf8.decode, String.toList_ofList]
    rfl
  have behind : characters.flatMap String.utf8EncodeChar = octet :: octets := by
    have whole : Utf8.encode text =
        Path.separator :: characters.flatMap String.utf8EncodeChar := by
      rw [Utf8.encode, read]
      rfl
    exact (List.cons.inj (whole.symm.trans encoded)).2
  have stripped : stripSeparators text = String.ofList characters := by
    refine stripSeparators_of_slash read fun character first => ?_
    obtain ⟨rest, rfl⟩ : ∃ rest, characters = character :: rest := by
      cases characters with
      | nil => cases first
      | cons _ rest => cases first; exact ⟨rest, rfl⟩
    rw [List.flatMap_cons] at behind
    constructor
    · rintro rfl
      exact plain.1 (List.cons.inj behind).1.symm
    · rintro rfl
      exact plain.2 (List.cons.inj behind).1.symm
  rw [lookupPath, stripped, Path.ofText, Utf8.encode, String.toList_ofList, behind]
  have spelling : path = ⟨Path.separator :: octet :: octets⟩ := by rw [← absolute]
  rw [spelling]
  rfl

end FileSystem

namespace Disk

/-- A path spells the place of a regular file. -/
def HoldsFile (disk : Disk) (path : Path) : Prop :=
  ∃ place content, path = pathOf place ∧ disk.node? place = some (.file content)

/-- A path without detours: it starts at the root, its names are names of their own, and no link
stands anywhere along it, so that it is resolved to itself. -/
structure Canonical (disk : Disk) (path : Path) : Prop where
  /-- It starts at the root. -/
  absolute : path.isAbsolute = true
  /-- Behind the first separator stand names of their own, and no link stands along them. -/
  names : ∃ names, path.pieces = [] :: names ∧ (∀ name ∈ names, Name.IsOrdinary name) ∧
    ∀ front, front <+: names → ∀ target, disk.node? front ≠ some (.link target)
  /-- It is resolved to itself. -/
  fixed : disk.realpath path = .ok path

section Sources

variable {disk : Disk} (sound : disk.Sound)
include sound

theorem Sound.holdsFile_iff {place : Location} {node : Node}
    (stands : disk.node? place = some node) :
    disk.HoldsFile (pathOf place) ↔ ∃ content, node = .file content := by
  constructor
  · rintro ⟨other, content, same, found⟩
    obtain rfl := pathOf_injective (sound.named _ _ stands) (sound.named _ _ found) same
    exact ⟨content, Option.some.inj (stands.symm.trans found)⟩
  · rintro ⟨content, rfl⟩
    exact ⟨place, content, rfl, stands⟩

/-- What a path is resolved to is reported as a file just where it is one. -/
theorem Sound.exists_isFile_of_realpath {path resolved : Path}
    (ok : disk.realpath path = .ok resolved) :
    ∃ regular, disk.isFile resolved = .ok regular ∧
      (regular = true ↔ disk.HoldsFile resolved) := by
  have comes := sound.comes_realpath path
  rw [ok] at comes
  cases comes with
  | ok _ arrived =>
      cases arrived with
      | directory stands | file stands =>
          rw [sound.holdsFile_iff stands]
          exact sound.exists_isFile_pathOf stands nofun

/-- Along the names down to a place without a link stands none. -/
theorem Sound.not_link_along {place front : Location} {node : Node}
    (stands : disk.node? place = some node) (unlinked : ∀ target, node ≠ .link target)
    (along : front <+: place) (target : Path) : disk.node? front ≠ some (.link target) := by
  obtain ⟨rest, rfl⟩ := along
  by_cases last : rest = []
  · rw [last, List.append_nil] at stands
    rw [stands]
    exact fun same => unlinked target (Option.some.inj same)
  · rw [sound.directory_above last stands]
    nofun

/-- The path of a place where a file stands has no detours. -/
theorem Sound.canonical_pathOf {place : Location} {content : List UInt8}
    (stands : disk.node? place = some (.file content))
    (fits : (pathOf place).octets.length ≤ maxSpelling) : disk.Canonical (pathOf place) where
  absolute := isAbsolute_pathOf place
  names := ⟨place, sound.pieces_pathOf stands (ne_nil_of_file stands),
    fun name listed => (sound.named _ _ stands name listed).toIsOrdinary,
    fun _ along => sound.not_link_along stands nofun along⟩
  fixed := sound.realpath_pathOf stands nofun fits

/-- A source that resolves to the path of a place where a file stands is found. -/
theorem Sound.findSource_of_realpath {root joined : Path} {source tag : String} {place : Location}
    {content : List UInt8} (looked : FileSystem.lookupPath root source = joined)
    (resolved : disk.realpath joined = .ok (pathOf place))
    (stands : disk.node? place = some (.file content)) :
    disk.fileSystem.findSource root source tag = .ok (pathOf place) := by
  subst looked
  obtain ⟨regular, answer, exact⟩ := sound.exists_isFile_pathOf stands nofun
  rw [exact.mpr ⟨content, rfl⟩] at answer
  exact FileSystem.findSource_iff.1 _ |>.mpr ⟨resolved, answer⟩

/-- A source that is found leads to the place of a file, and its path is that of the place. -/
theorem Sound.exists_of_findSource {root : Path} {source tag : String} {path : Path}
    (found : disk.fileSystem.findSource root source tag = .ok path) :
    ∃ place content, disk.LeadsTo (FileSystem.lookupPath root source) place ∧
      path = pathOf place ∧ disk.node? place = some (.file content) ∧
      (pathOf place).octets.length ≤ maxSpelling := by
  obtain ⟨resolved, regular⟩ := FileSystem.findSource_iff.1 path |>.mp found
  have comes := sound.comes_realpath (FileSystem.lookupPath root source)
  rw [show disk.realpath _ = _ from resolved] at comes
  cases comes with
  | @ok place leads arrived =>
      cases arrived with
      | directory stands =>
          obtain ⟨answer, reported, exact⟩ := sound.exists_isFile_pathOf stands nofun
          obtain rfl := Except.ok.inj (reported.symm.trans regular)
          obtain ⟨_, same⟩ := exact.mp rfl
          cases same
      | @file content stands fits => exact ⟨place, content, leads, rfl, stands, fits⟩

/-- The path of a source that is found is found again beneath the root directory. -/
theorem Sound.findSource_again {place : Location} {content : List UInt8}
    (stands : disk.node? place = some (.file content))
    (fits : (pathOf place).octets.length ≤ maxSpelling) {text : String}
    (spelled : pathOf place = Path.ofText text)
    (plain : (pathOf place).octets[1]? ≠ some FileSystem.backslash) (tag : String) :
    disk.fileSystem.findSource ⟨[Path.separator]⟩ text tag = .ok (pathOf place) := by
  have looked : FileSystem.lookupPath ⟨[Path.separator]⟩ text = pathOf place := by
    obtain ⟨name, rest, rfl⟩ := List.exists_cons_of_ne_nil (ne_nil_of_file stands)
    have entry := sound.named _ _ stands name List.mem_cons_self
    cases name with
    | nil => exact absurd rfl entry.ne_nil
    | cons octet name =>
        refine FileSystem.lookupPath_of_absolute rfl ⟨?_, ?_⟩ spelled
        · rintro rfl
          exact entry.plain List.mem_cons_self
        · rintro rfl
          exact plain rfl
  exact sound.findSource_of_realpath looked (sound.realpath_pathOf stands nofun fits) stands

/-- Each outcome of looking up a source comes of one way in which its path resolves.  A path is
resolved as steps along it lead to a place or are hindered, and one that leads to a place is
resolved to it, unless there are too many links or too long names.  Separators in front of the
source change nothing.  The path of a source that is found has no detours and is found again as it
stands, and two sources have the same path just where they lead to the same place. -/
theorem Sound.findSource_classifies (root : Path) (source tag : String) :
    let joined := FileSystem.lookupPath root source
    let found := disk.fileSystem.findSource root source tag
    (∀ path, found = .ok path ↔ disk.realpath joined = .ok path ∧ disk.HoldsFile path) ∧
    (∀ path, found = .error (.irregularSource tag path) ↔
      disk.realpath joined = .ok path ∧ ¬disk.HoldsFile path) ∧
    (found = .error (.missingSource tag joined) ↔ disk.realpath joined = .error .notFound) ∧
    (∀ cause, found = .error (.unresolvedPath tag joined cause) ↔
      disk.realpath joined = .error cause ∧ cause ≠ .notFound) ∧
    disk.Comes joined (disk.realpath joined) ∧
    (∀ place, disk.LeadsTo joined place → disk.realpath joined = .ok (pathOf place) ∨
      disk.realpath joined = .error .linkLoop ∨ disk.realpath joined = .error .nameTooLong) ∧
    (∀ separators : String, (∀ character ∈ separators.toList, character = '/' ∨ character = '\\') →
      disk.fileSystem.findSource root (separators ++ source) tag = found) ∧
    (∀ path, found = .ok path → disk.Canonical path ∧
      ∀ text, path = Path.ofText text → path.octets[1]? ≠ some FileSystem.backslash →
        ∀ again, disk.fileSystem.findSource ⟨[Path.separator]⟩ text again = .ok path) ∧
    ∀ otherRoot other otherTag path otherPath, found = .ok path →
      disk.fileSystem.findSource otherRoot other otherTag = .ok otherPath →
      (path = otherPath ↔ ∃ place, disk.LeadsTo joined place ∧
        disk.LeadsTo (FileSystem.lookupPath otherRoot other) place) := by
  intro joined found
  obtain ⟨ok, irregular, missing, unresolved⟩ :=
    @FileSystem.findSource_iff disk.fileSystem root source tag
  refine ⟨fun path => ?_, fun path => ?_, (missing joined).trans (and_iff_right rfl),
    fun cause => ?_, sound.comes_realpath joined,
    fun place leads => sound.realpath_of_leadsTo leads, fun separators only => ?_,
    fun path exact => ?_, fun otherRoot other otherTag path otherPath one another => ?_⟩
  · refine (ok path).trans (and_congr_right fun resolved => ?_)
    obtain ⟨regular, answer, exact⟩ := sound.exists_isFile_of_realpath resolved
    rw [← exact]
    exact ⟨fun reported => Except.ok.inj (answer.symm.trans reported), fun same => same ▸ answer⟩
  · refine (irregular path).trans (and_congr_right fun resolved => ?_)
    obtain ⟨regular, answer, exact⟩ := sound.exists_isFile_of_realpath resolved
    rw [← exact, Bool.not_eq_true]
    exact ⟨fun reported => Except.ok.inj (answer.symm.trans reported), fun same => same ▸ answer⟩
  · refine (unresolved joined cause).trans ⟨?_, fun failed => .inl ⟨rfl, failed⟩⟩
    rintro (⟨-, failed⟩ | ⟨resolved, refused⟩)
    · exact failed
    · obtain ⟨regular, answer, -⟩ := sound.exists_isFile_of_realpath resolved
      cases answer.symm.trans refused
  · change disk.fileSystem.findSource root (separators ++ source) tag =
      disk.fileSystem.findSource root source tag
    rw [FileSystem.findSource_append only]
  · obtain ⟨place, content, -, rfl, stands, fits⟩ := sound.exists_of_findSource exact
    exact ⟨sound.canonical_pathOf stands fits, fun text spelled plain again =>
      sound.findSource_again stands fits spelled plain again⟩
  · obtain ⟨place, _, leads, rfl, stands, -⟩ := sound.exists_of_findSource one
    obtain ⟨otherPlace, _, otherLeads, rfl, otherStands, -⟩ := sound.exists_of_findSource another
    constructor
    · intro same
      obtain rfl := pathOf_injective (sound.named _ _ stands) (sound.named _ _ otherStands) same
      exact ⟨place, leads, otherLeads⟩
    · rintro ⟨common, toCommon, otherToCommon⟩
      rw [leads.unique toCommon, otherLeads.unique otherToCommon]

omit sound

/-- Along two links in a row, and from a relative root with separators of both kinds and a dot, two
sources lead to one file. -/
theorem Sound.findSource_classifies_links :
    let disk : Disk :=
      { workingDirectory := [Utf8.encode "p"],
        entries := [([Utf8.encode "p"], .directory), ([Utf8.encode "q"], .directory),
          ([Utf8.encode "p", Utf8.encode "a.lua"], .file []),
          ([Utf8.encode "p", Utf8.encode "l"], .link (.ofText "../q")),
          ([Utf8.encode "q", Utf8.encode "b"], .link (.ofText "/p/a.lua"))] }
    let path := Path.ofText "/p/a.lua"
    disk.Sound ∧
      disk.fileSystem.findSource (.ofText "/p") "l/b" "l/b:1" = .ok path ∧
      disk.fileSystem.findSource (.ofText "../p") "\\/./a.lua" "\\/./a.lua:1" = .ok path ∧
      disk.Canonical path ∧
      ∃ place, disk.LeadsTo (.ofText "/p/l/b") place ∧
        disk.LeadsTo (.ofText "../p/./a.lua") place := by
  intro disk path
  have sound : disk.Sound := sound_of_entries (by decide +kernel) (by decide +kernel)
  have joined : FileSystem.lookupPath (.ofText "/p") "l/b" = .ofText "/p/l/b" := by
    decide +kernel
  have dotted : FileSystem.lookupPath (.ofText "../p") "\\/./a.lua" = .ofText "../p/./a.lua" := by
    decide +kernel
  have resolved : disk.realpath (.ofText "/p/l/b") = .ok path := by cbv
  have also : disk.realpath (.ofText "../p/./a.lua") = .ok path := by cbv
  have holds : disk.HoldsFile path :=
    ⟨[Utf8.encode "p", Utf8.encode "a.lua"], [], by decide +kernel, by decide +kernel⟩
  obtain ⟨outcome, -, -, -, -, -, -, canonical, same⟩ :=
    sound.findSource_classifies (.ofText "/p") "l/b" "l/b:1"
  have found := (outcome path).mpr ⟨joined ▸ resolved, holds⟩
  have again := ((sound.findSource_classifies (.ofText "../p") "\\/./a.lua" "\\/./a.lua:1").1
    path).mpr ⟨dotted ▸ also, holds⟩
  obtain ⟨place, leads, others⟩ := (same _ _ _ path path found again).mp rfl
  exact ⟨sound, found, again, (canonical path found).1, place, joined ▸ leads, dotted ▸ others⟩

end Sources
end Disk
end LuaCoverage
