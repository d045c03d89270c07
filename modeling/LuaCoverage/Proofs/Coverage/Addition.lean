import LuaCoverage.Proofs.Coverage.Index

/-!
# Adding records

What a tally holds is determined by the credits of the records that were added.  A record goes to
the file that its spelling was first found to lead to, or else to the file that is found now; a
record whose source cannot be found is refused.
-/

namespace LuaCoverage

/-- A further item is kept after all others, unless it is there already. -/
theorem eraseDups_concat {α : Type} [BEq α] [LawfulBEq α] (items : List α) (item : α) :
    (items ++ [item]).eraseDups =
      if item ∈ items then items.eraseDups else items.eraseDups ++ [item] := by
  rw [List.eraseDups_append, List.removeAll, List.filter_singleton]
  by_cases met : item ∈ items
  · rw [if_pos met]
    simp [met]
  · rw [if_neg met]
    simp [met, List.eraseDups_cons]

namespace Tally

/-- A tally holds what credits say. -/
structure Reflects (tally : Tally) (root : Path) (credits : List Credit) : Prop where
  /-- Sources are looked up beneath the root. -/
  root : tally.root = root
  /-- Files stand in the order of their first credit, each once. -/
  paths : tally.paths = (credits.map (·.path)).eraseDups
  /-- All credits of one spelling go to one file. -/
  consistent : Credit.Consistent credits
  /-- Both indices are exact. -/
  indexed : tally.Indexed (Credit.destination credits)
  /-- Every file has the lines and hits of its credits. -/
  files : ∀ (index : Nat) (file : FileHits),
    tally.files[index]? = some file → file.Reflects credits
  /-- Every credit is counted. -/
  points : tally.points = credits.length

/-- A tally in which the file of a further credit is found and the credit is not yet added. -/
structure Awaits (tally : Tally) (root : Path) (credits : List Credit) (credit : Credit)
    (index : Nat) : Prop where
  /-- Sources are looked up beneath the root. -/
  root : tally.root = root
  /-- Files stand in the order of their first credit, the further one included. -/
  paths : tally.paths = ((credits ++ [credit]).map (·.path)).eraseDups
  /-- All credits of one spelling go to one file, with the further credit. -/
  consistent : Credit.Consistent (credits ++ [credit])
  /-- Both indices are exact, with the further credit. -/
  indexed : tally.Indexed (Credit.destination (credits ++ [credit]))
  /-- Every file has the lines and hits of the earlier credits. -/
  files : ∀ (index : Nat) (file : FileHits),
    tally.files[index]? = some file → file.Reflects credits
  /-- The earlier credits are counted. -/
  points : tally.points = credits.length
  /-- Where the file of the further credit stands. -/
  stands : tally.paths[index]? = some credit.path

/-- Where spellings lead after a further credit. -/
theorem extend_destination (credits : List Credit) (record : Record) (path : Path) :
    Credit.destination (credits ++ [⟨record, path⟩]) =
      extend (Credit.destination credits) record.source path := by
  funext source
  exact Credit.destination_append credits ⟨record, path⟩ source

theorem eraseDups_paths_append (credits : List Credit) (credit : Credit) :
    ((credits ++ [credit]).map (·.path)).eraseDups =
      if credit.path ∈ credits.map (·.path) then (credits.map (·.path)).eraseDups
      else (credits.map (·.path)).eraseDups ++ [credit.path] := by
  rw [List.map_append, List.map_singleton, eraseDups_concat]

theorem empty_reflects (root : Path) : Reflects { root } root [] where
  root := rfl
  paths := rfl
  consistent := nofun
  indexed := by
    constructor
    · intro path index
      simp [paths]
    · intro source index
      simp [Credit.destination]
  files index file found := by simp at found
  points := rfl

namespace Awaits

variable {tally : Tally} {root : Path} {credits : List Credit} {credit : Credit} {index : Nat}

/-- Adding the credit to its file brings the tally up to date. -/
theorem reflects (awaits : tally.Awaits root credits credit index) :
    (tally.credit index credit.record).Reflects root (credits ++ [credit]) where
  root := awaits.root
  paths := by rw [credit_paths, awaits.paths]
  consistent := awaits.consistent
  indexed := awaits.indexed.credit index credit.record
  files other file found := by
    rw [getElem?_credit] at found
    split at found
    · next same =>
        subst same
        obtain ⟨before, before_found, rfl⟩ := Option.map_eq_some_iff.mp found
        have stands := awaits.stands
        rw [getElem?_paths, before_found] at stands
        exact (awaits.files index before before_found).addHits (Option.some.inj stands).symm
    · next different =>
        apply (awaits.files other file found).other
        intro same
        have otherStands : tally.paths[other]? = some credit.path := by
          rw [getElem?_paths, found, same]
          rfl
        exact different (awaits.indexed.index_unique awaits.stands otherStands)
  points := by
    rw [Tally.credit, awaits.points, List.length_append, List.length_singleton]

end Awaits

namespace Reflects

variable {tally : Tally} {root : Path} {credits : List Credit}

theorem mem_paths (reflects : tally.Reflects root credits) {path : Path} :
    path ∈ tally.paths ↔ path ∈ credits.map (·.path) := by
  rw [reflects.paths, List.mem_eraseDups]

theorem mem_paths_iff_destination (reflects : tally.Reflects root credits) {path : Path} :
    path ∈ tally.paths ↔ ∃ source, Credit.destination credits source = some path := by
  rw [reflects.mem_paths, List.mem_map]
  constructor
  · rintro ⟨credit, member, rfl⟩
    exact ⟨credit.record.source, reflects.consistent credit member⟩
  · rintro ⟨source, known⟩
    obtain ⟨credit, member, _, path_eq⟩ := Credit.exists_of_destination known
    exact ⟨credit, member, path_eq⟩

theorem mem_paths_of_destination (reflects : tally.Reflects root credits) {source : String}
    {path : Path} (known : Credit.destination credits source = some path) :
    path ∈ tally.paths :=
  reflects.mem_paths_iff_destination.mpr ⟨source, known⟩

/-- A known spelling leads to its file without being looked up. -/
theorem awaits_known (reflects : tally.Reflects root credits) {record : Record} {path : Path}
    (known : Credit.destination credits record.source = some path) :
    ∃ index, tally.indexOfSource[record.source]? = some index ∧
      tally.Awaits root credits ⟨record, path⟩ index := by
  have met := reflects.mem_paths_of_destination known
  obtain ⟨index, stands⟩ := List.mem_iff_getElem?.mp met
  have unchanged : Credit.destination (credits ++ [⟨record, path⟩]) =
      Credit.destination credits := by
    funext source
    exact Credit.destination_append_of_known known source
  refine ⟨index, (reflects.indexed.ofSource _ _).mpr ⟨path, known, stands⟩, ?_⟩
  exact
    { root := reflects.root
      paths := by
        rw [eraseDups_paths_append, if_pos (reflects.mem_paths.mp met), reflects.paths]
      consistent := reflects.consistent.append (Or.inl known)
      indexed := unchanged ▸ reflects.indexed
      files := reflects.files
      points := reflects.points
      stands := stands }

/-- A new spelling of a file that is there is remembered. -/
theorem awaits_merged (reflects : tally.Reflects root credits) {record : Record} {path : Path}
    {index : Nat} (unknown : Credit.destination credits record.source = none)
    (stands : tally.paths[index]? = some path) :
    (tally.remember record.source index).Awaits root credits ⟨record, path⟩ index where
  root := reflects.root
  paths := by
    have met := reflects.mem_paths.mp (List.mem_of_getElem? stands)
    rw [eraseDups_paths_append, if_pos met, remember_paths, reflects.paths]
  consistent := reflects.consistent.append (Or.inr unknown)
  indexed := by
    rw [extend_destination]
    exact reflects.indexed.remember unknown stands
  files := reflects.files
  points := reflects.points
  stands := stands

/-- A new file is put after all others. -/
theorem awaits_new (reflects : tally.Reflects root credits) {record : Record} {path : Path}
    (unknown : Credit.destination credits record.source = none) (fresh : path ∉ tally.paths) :
    ((tally.append path).remember record.source tally.files.size).Awaits root credits
      ⟨record, path⟩ tally.files.size := by
  have uncredited : path ∉ credits.map (·.path) := fun met => fresh (reflects.mem_paths.mpr met)
  have stands : (tally.append path).paths[tally.files.size]? = some path := by
    rw [append_stands, length_paths]
    exact Or.inr ⟨rfl, rfl⟩
  have indexed := reflects.indexed.append fresh fun _ _ => reflects.mem_paths_of_destination
  exact
    { root := reflects.root
      paths := by
        rw [eraseDups_paths_append, if_neg uncredited, remember_paths, append_paths,
          reflects.paths]
      consistent := reflects.consistent.append (Or.inr unknown)
      indexed := by
        rw [extend_destination]
        exact indexed.remember unknown stands
      files := by
        intro index file found
        rw [remember, append, Array.getElem?_push] at found
        split at found
        · cases found
          exact FileHits.new_reflects uncredited
        · exact reflects.files index file found
      points := reflects.points
      stands := stands }

/-- A known spelling is credited to its file, whatever the file system says. -/
theorem add_known (reflects : tally.Reflects root credits) (system : FileSystem) {record : Record}
    {path : Path} (known : Credit.destination credits record.source = some path) :
    ∃ index, tally.paths[index]? = some path ∧
      tally.add system record = .ok (tally.credit index record, []) ∧
      (tally.credit index record).Reflects root (credits ++ [⟨record, path⟩]) := by
  obtain ⟨index, found, awaits⟩ := reflects.awaits_known known
  refine ⟨index, awaits.stands, ?_, awaits.reflects⟩
  rw [add, locate, found]
  rfl

/-- The spellings that are not known are those that lead nowhere. -/
theorem indexOfSource_eq_none_iff (reflects : tally.Reflects root credits) {source : String} :
    tally.indexOfSource[source]? = none ↔ Credit.destination credits source = none := by
  constructor
  · intro unknown
    rw [Option.eq_none_iff_forall_ne_some]
    intro path known
    obtain ⟨index, stands⟩ :=
      List.mem_iff_getElem?.mp (reflects.mem_paths_of_destination known)
    rw [(reflects.indexed.ofSource source index).mpr ⟨path, known, stands⟩] at unknown
    cases unknown
  · intro nowhere
    rw [Option.eq_none_iff_forall_ne_some]
    intro index found
    obtain ⟨path, known, _⟩ := (reflects.indexed.ofSource source index).mp found
    rw [nowhere] at known
    cases known

/-- A new spelling that cannot be found is refused. -/
theorem add_refused (reflects : tally.Reflects root credits) {system : FileSystem}
    {record : Record} {error : Error}
    (unknown : Credit.destination credits record.source = none)
    (refused : system.findSource root record.source (Tag.render record.source record.line) =
      .error error) :
    tally.add system record = .error error := by
  rw [add, locate, reflects.indexOfSource_eq_none_iff.mpr unknown, reflects.root, refused]
  rfl

/-- A new spelling that is found is credited to the file that it leads to. -/
theorem add_found (reflects : tally.Reflects root credits) {system : FileSystem}
    {record : Record} {path : Path}
    (unknown : Credit.destination credits record.source = none)
    (found : system.findSource root record.source (Tag.render record.source record.line) =
      .ok path) :
    ∃ grown events, tally.add system record = .ok (grown, events) ∧
      grown.Reflects root (credits ++ [⟨record, path⟩]) := by
  rw [add, locate, reflects.indexOfSource_eq_none_iff.mpr unknown, reflects.root, found]
  cases met : tally.indexOfPath[path]? with
  | some index =>
      have stands := (reflects.indexed.ofPath path index).mp met
      exact ⟨_, _, by simp only [met]; rfl, (reflects.awaits_merged unknown stands).reflects⟩
  | none =>
      have fresh := reflects.indexed.unknown_path.mp met
      exact ⟨_, _, by simp only [met]; rfl, (reflects.awaits_new unknown fresh).reflects⟩

end Reflects
end Tally
end LuaCoverage
