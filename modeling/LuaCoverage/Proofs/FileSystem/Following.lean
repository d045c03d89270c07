import LuaCoverage.Proofs.FileSystem.Steps
import LuaCoverage.Proofs.FileSystem.Writing

/-!
# Following paths step by step

On a disk whose entries stand in directories, the walk along a path takes the steps along it: it
arrives where they end, or it fails with what hinders the next one.  A path that leads to a place is
resolved to it, unless there are too many links or too long names on the way.
-/

namespace LuaCoverage
namespace Disk

/-- A place where a path may end. -/
inductive Arrived (disk : Disk) (place : Location) : Prop
  /-- A directory stands there. -/
  | directory (stands : disk.node? place = some .directory)
  /-- A file stands there, and its path is not too long. -/
  | file {content : List UInt8} (stands : disk.node? place = some (.file content))
      (fits : (pathOf place).octets.length ≤ maxSpelling)

/-- How steps from a stage end: at a place, or with what hinders the next one. -/
def Ends (disk : Disk) (start : Stage) : Except IoError Location → Prop
  | .ok place => disk.Arrived place ∧
      ∃ links, Relation.ReflTransGen disk.Step start ⟨links, place, []⟩
  | .error cause => ∃ stage, Relation.ReflTransGen disk.Step start stage ∧
      disk.Hinders cause stage

section Walks

variable {disk : Disk}

theorem Ends.of_step {start next : Stage} {outcome : Except IoError Location}
    (step : disk.Step start next) (ends : disk.Ends next outcome) : disk.Ends start outcome := by
  cases outcome with
  | ok place =>
      obtain ⟨arrived, links, steps⟩ := ends
      exact ⟨arrived, links, .head step steps⟩
  | error cause =>
      obtain ⟨stage, steps, hinders⟩ := ends
      exact ⟨stage, .head step steps, hinders⟩

theorem Ends.of_hinders {start : Stage} {cause : IoError} (hinders : disk.Hinders cause start) :
    disk.Ends start (.error cause) :=
  ⟨start, .refl, hinders⟩

theorem stays_iff {name : Name} : stays name = true ↔ name = [] ∨ name = Path.sameDirectory := by
  rw [stays, Bool.or_eq_true, List.isEmpty_iff, beq_iff_eq]

theorem isOrdinary_of_moves {name : Name} (moves : ¬stays name = true)
    (below : ¬(name == Path.directoryAbove) = true) : name.IsOrdinary := by
  rw [stays_iff, not_or] at moves
  exact ⟨moves.1, moves.2, fun same => below (beq_iff_eq.mpr same)⟩

theorem node?_root : disk.node? [] = some .directory := rfl

/-- A file stands below the root. -/
theorem ne_nil_of_file {place : Location} {content : List UInt8}
    (stands : disk.node? place = some (.file content)) : place ≠ [] := by
  rintro rfl
  cases node?_root.symm.trans stands

theorem Sound.directory_dropLast (sound : disk.Sound) {here : Location} {node : Node}
    (stands : disk.node? here = some node) : disk.node? here.dropLast = some .directory := by
  rcases List.eq_nil_or_concat here with rfl | ⟨above, name, rfl⟩
  · exact node?_root
  · rw [List.concat_eq_append] at stands ⊢
    rw [List.dropLast_concat]
    exact sound.rooted above name node stands

theorem directory_startOf {here : Location}
    (directory : disk.node? here = some .directory) (target : Path) :
    disk.node? (startOf here target) = some .directory := by
  rw [startOf]
  split
  · exact node?_root
  · exact directory

/-- Nothing stands beneath a file. -/
theorem Sound.absent_of_file (sound : disk.Sound) {here : Location} {content : List UInt8}
    (stands : disk.node? here = some (.file content)) (name : Name) :
    disk.node? (here ++ [name]) = none := by
  cases beneath : disk.node? (here ++ [name]) with
  | none => rfl
  | some node => cases stands.symm.trans (sound.rooted here name node beneath)

theorem length_pathOf_append_le (here : Location) (name : Name) :
    (pathOf (here ++ [name])).octets.length ≤ (pathOf here).octets.length + (name.length + 1) := by
  cases here with
  | nil => simp [pathOf]
  | cons first here =>
      simp only [pathOf, List.cons_append, List.flatMap_cons, List.flatMap_append, List.flatMap_nil,
        List.length_append, List.length_cons, List.length_nil]
      omega

section Lengths

variable {here : Location} {name : Name} {rest : List Name}

theorem TooLong.cons (long : TooLong here rest) (name : Name) : TooLong here (name :: rest) := by
  rw [TooLong] at long ⊢
  rw [List.flatMap_cons, List.length_append]
  omega

theorem TooLong.of_entered (long : TooLong (here ++ [name]) rest) :
    TooLong here (name :: rest) := by
  have bound := length_pathOf_append_le here name
  rw [TooLong] at long ⊢
  rw [List.flatMap_cons, List.length_append, List.length_cons]
  omega

theorem tooLong_of_exceeds (rest : List Name)
    (long : exceeds (some maxSpelling) (here ++ [name]) 0 = true) :
    TooLong here (name :: rest) := by
  refine .of_entered (Nat.lt_of_lt_of_le ?_ (Nat.le_add_right _ _))
  simpa [exceeds] using long

/-- A separator that makes sure of a directory is one of those in front of the names that follow. -/
theorem tooLong_of_askDirectory
    (long : (askDirectory rest && exceeds (some maxSpelling) (here ++ [name]) 1) = true) :
    TooLong here (name :: rest) := by
  obtain ⟨asked, long⟩ := Bool.and_eq_true_iff.mp long
  have beyond : maxSpelling < (pathOf (here ++ [name])).octets.length + 1 := by
    simpa [exceeds] using long
  cases rest with
  | nil => cases asked
  | cons next rest =>
      refine .of_entered (Nat.lt_of_lt_of_le beyond (Nat.add_le_add_left ?_ _))
      exact Nat.succ_le_of_lt (List.length_pos_iff.mpr (List.cons_ne_nil _ _))

end Lengths

theorem askDirectory_of_stays {name : Name} {rest : List Name} (skipped : stays name = true)
    (free : askDirectory (name :: rest) = false) : rest ≠ [] ∧ askDirectory rest = false := by
  rw [askDirectory, List.dropWhile_cons_of_pos skipped] at free
  cases rest with
  | nil => cases free
  | cons => exact ⟨List.cons_ne_nil _ _, free⟩

section Blocked

variable {limit : Option Nat} {links : Nat} {here : Location} {name : Name} {rest : List Name}
  (moves : ¬stays name = true) (below : ¬(name == Path.directoryAbove) = true)
include moves below

theorem walk_exceeds (long : exceeds limit (here ++ [name]) 0 = true) :
    disk.walk limit links here (name :: rest) = .error .nameTooLong := by
  rw [walk.eq_def]
  dsimp only
  rw [if_neg moves, if_neg below, if_pos long]

theorem walk_obstacle (fits : ¬exceeds limit (here ++ [name]) 0 = true)
    (unlinked : ∀ target, disk.node? (here ++ [name]) ≠ some (.link target)) {cause : IoError}
    (blocked : disk.obstacle? limit here name rest = some cause) :
    disk.walk limit links here (name :: rest) = .error cause := by
  rw [walk, if_neg moves, if_neg below, if_neg fits, blocked]
  · exact fun target linked _ => unlinked target linked
  · exact fun target _ linked _ => unlinked target linked

end Blocked

/-- Names that follow a file lead nowhere: the file is no directory, or the path is too long. -/
theorem Sound.walk_file (sound : disk.Sound) (links : Nat) {here : Location} {names : List Name}
    {content : List UInt8} (stands : disk.node? here = some (.file content)) (more : names ≠ [])
    (free : askDirectory names = false) :
    disk.walk (some maxSpelling) links here names = .error .notDirectory ∨
      disk.walk (some maxSpelling) links here names = .error .nameTooLong ∧
        TooLong here names := by
  induction names with
  | nil => exact absurd rfl more
  | cons name rest ih =>
      by_cases skipped : stays name = true
      · obtain ⟨left, others⟩ := askDirectory_of_stays skipped free
        rw [walk_stays skipped]
        exact (ih left others).imp_right (And.imp_right fun long => long.cons name)
      · have below : ¬(name == Path.directoryAbove) = true := by
          rw [askDirectory, List.dropWhile_cons_of_neg skipped] at free
          exact Bool.eq_false_iff.mp free
        have absent := sound.absent_of_file stands name
        have unlinked : ∀ target, disk.node? (here ++ [name]) ≠ some (.link target) := by
          simp [absent]
        by_cases long : exceeds (some maxSpelling) (here ++ [name]) 0 = true
        · exact .inr ⟨walk_exceeds skipped below long, tooLong_of_exceeds rest long⟩
        · by_cases longer :
              (askDirectory rest && exceeds (some maxSpelling) (here ++ [name]) 1) = true
          · refine .inr ⟨walk_obstacle skipped below long unlinked ?_,
              tooLong_of_askDirectory longer⟩
            rw [obstacle?, if_pos longer]
          · refine .inl (walk_obstacle skipped below long unlinked ?_)
            rw [obstacle?, if_neg longer, absent]
            simp only [absence, stands]

section Entering

variable {followed links : Nat} {here : Location} {name : Name} {rest : List Name}
  (ordinary : name.IsOrdinary)
include ordinary

/-- What is in the way of a walk hinders the step. -/
theorem hinders_of_obstacle (directory : disk.node? here = some .directory) {cause : IoError}
    (blocked : disk.obstacle? (some maxSpelling) here name rest = some cause) :
    disk.Hinders cause ⟨followed, here, name :: rest⟩ := by
  rw [obstacle?] at blocked
  split at blocked
  · next longer =>
      cases blocked
      exact .longPath (tooLong_of_askDirectory longer)
  · cases stands : disk.node? (here ++ [name]) with
    | none =>
        simp only [stands, absence, directory, missing, Option.some.injEq] at blocked
        split at blocked <;> cases blocked
        · exact .longName ‹_›
        · exact .missing directory stands ordinary (Nat.not_lt.mp ‹_›)
    | some node =>
        cases node with
        | directory | link => simp [stands] at blocked
        | file content =>
            simp only [stands] at blocked
            split at blocked <;> cases blocked
            refine .file ordinary stands ?_
            rintro rfl
            exact absurd ‹askDirectory [] = true› Bool.false_ne_true

/-- Where nothing is in the way of a walk, it enters a directory, or it comes to a file and ends. -/
theorem Sound.ends_of_free (sound : disk.Sound)
    (fits : ¬exceeds (some maxSpelling) (here ++ [name]) 0 = true)
    (unlinked : ∀ target, disk.node? (here ++ [name]) ≠ some (.link target))
    (free : disk.obstacle? (some maxSpelling) here name rest = none)
    (inside : disk.node? (here ++ [name]) = some .directory →
      disk.Ends ⟨followed, here ++ [name], rest⟩
        (disk.walk (some maxSpelling) links (here ++ [name]) rest)) :
    disk.Ends ⟨followed, here, name :: rest⟩
      (disk.walk (some maxSpelling) links (here ++ [name]) rest) := by
  obtain ⟨-, node, stands, passes⟩ := obstacle?_eq_none_iff.mp free
  cases node with
  | directory => exact .of_step (.enter ordinary stands) (inside stands)
  | link target => exact absurd stands (unlinked target)
  | file content =>
      by_cases more : rest = []
      · subst more
        rw [walk]
        have short : (pathOf (here ++ [name])).octets.length ≤ maxSpelling := by
          simpa [exceeds] using fits
        exact ⟨.file stands short, followed, .single (.file ordinary stands)⟩
      · rcases sound.walk_file links stands more (passes content rfl) with
          ended | ⟨ended, long⟩
        · rw [ended]
          exact .of_hinders (.file ordinary stands more)
        · rw [ended]
          exact .of_hinders (.longPath long.of_entered)

end Entering

/-- The walk along names takes the steps along them. -/
theorem Sound.ends_walk (sound : disk.Sound) {followed links : Nat} {here : Location}
    {names : List Name} (count : followed + links = maxLinks)
    (directory : disk.node? here = some .directory) :
    disk.Ends ⟨followed, here, names⟩ (disk.walk (some maxSpelling) links here names) := by
  generalize bound : some maxSpelling = limit
  fun_induction walk disk limit links here names generalizing followed with
  | case1 links here => exact ⟨.directory directory, followed, .refl⟩
  | case2 links here name rest skipped ih =>
      exact .of_step (.stay (stays_iff.mp skipped)) (ih count directory)
  | case3 links here name rest moves above ih =>
      rw [beq_iff_eq] at above
      subst above
      exact .of_step .above (ih count (sound.directory_dropLast directory))
  | case4 links here name rest moves below long =>
      subst bound
      exact .of_hinders (.longPath (tooLong_of_exceeds rest long))
  | case5 here name rest moves below fits target linked =>
      obtain rfl : followed = maxLinks := count
      exact .of_hinders (.loop (isOrdinary_of_moves moves below) linked)
  | case6 here name rest moves below fits target links linked ih =>
      exact .of_step (.link (isOrdinary_of_moves moves below) linked)
        (ih (by omega) (directory_startOf directory target))
  | case7 here name rest moves below fits links cause blocked =>
      subst bound
      exact .of_hinders (hinders_of_obstacle (isOrdinary_of_moves moves below) directory blocked)
  | case8 here name rest moves below fits links free loop follow ih =>
      subst bound
      have ordinary := isOrdinary_of_moves moves below
      refine sound.ends_of_free ordinary fits (fun target linked => ?_) free (ih count)
      cases links with
      | zero => exact loop target linked rfl
      | succ links => exact follow target links linked rfl

/-! ## Resolving a path -/

theorem checked_of_nul {path : Path} (inside : (0 : UInt8) ∈ path.octets) :
    checked path = .error .nulInPath := by
  rw [checked, if_pos (List.contains_iff_mem.mpr inside)]

theorem checked_of_empty {path : Path} (nothing : path.octets = []) :
    checked path = .error .notFound := by
  rw [checked, nothing]
  rfl

theorem checked_of_proper {path : Path} (ne_nil : path.octets ≠ [])
    (noNul : (0 : UInt8) ∉ path.octets) : checked path = .ok path := by
  rw [checked, if_neg (mt List.contains_iff_mem.mp noNul), if_neg (mt List.isEmpty_iff.mp ne_nil)]

theorem Sound.ends_locate (sound : disk.Sound) {path : Path} (passed : checked path = .ok path) :
    disk.Ends (disk.begin path) (disk.locate (some maxSpelling) path) := by
  rw [locate_of_checked passed]
  exact sound.ends_walk (Nat.zero_add _) (directory_startOf sound.started path)

/-- What a path comes to: a place where it may end, or a reason why it fails. -/
inductive Comes (disk : Disk) (path : Path) : Except IoError Path → Prop
  /-- The path leads to a place and is resolved to the path of this place. -/
  | ok {place : Location} (leads : disk.LeadsTo path place) (arrived : disk.Arrived place) :
      Comes disk path (.ok (pathOf place))
  /-- The path fails. -/
  | error {cause : IoError} (fails : disk.Fails path cause) : Comes disk path (.error cause)

/-- Resolving a path follows it. -/
theorem Sound.comes_realpath (sound : disk.Sound) (path : Path) :
    disk.Comes path (disk.realpath path) := by
  by_cases inside : (0 : UInt8) ∈ path.octets
  · rw [realpath, locate, checked_of_nul inside]
    exact .error (.nul inside)
  by_cases nothing : path.octets = []
  · rw [realpath, locate, checked_of_empty nothing]
    exact .error (.empty nothing)
  have ends := sound.ends_locate (checked_of_proper nothing inside)
  rw [realpath]
  cases located : disk.locate (some maxSpelling) path with
  | ok place =>
      rw [located] at ends
      obtain ⟨arrived, steps⟩ := ends
      exact .ok ⟨nothing, inside, steps⟩ arrived
  | error cause =>
      rw [located] at ends
      obtain ⟨stage, steps, hinders⟩ := ends
      exact .error (.hindered inside steps hinders)

/-- A step behind a name of its own finds something, and it finds a file only at the end. -/
theorem Step.exists_node {links : Nat} {here : Location} {name : Name} {rest : List Name}
    {next : Stage} (ordinary : name.IsOrdinary)
    (step : disk.Step ⟨links, here, name :: rest⟩ next) :
    ∃ node, disk.node? (here ++ [name]) = some node ∧
      ∀ content, node = .file content → rest = [] := by
  cases step with
  | stay same => exact absurd ordinary (not_isOrdinary_of_same same)
  | above => exact absurd rfl ordinary.ne_above
  | link _ stands | enter _ stands => exact ⟨_, stands, nofun⟩
  | file _ stands => exact ⟨_, stands, fun _ _ => rfl⟩

/-- A path that fails leads nowhere, unless there are too many links or too long names on the
way. -/
theorem LeadsTo.cause_of_fails {path : Path} {place : Location} (leads : disk.LeadsTo path place)
    {cause : IoError} (fails : disk.Fails path cause) :
    cause = .linkLoop ∨ cause = .nameTooLong := by
  obtain ⟨links, ends⟩ := leads.steps
  cases fails with
  | nul inside => exact absurd inside leads.noNul
  | empty nothing => exact absurd nothing leads.ne_nil
  | hindered _ steps hinders =>
      rcases (steps_to_end_of_steps ends steps).cases_head with same | ⟨next, step, -⟩
      · cases hinders with
        | loop => exact .inl rfl
        | longName | longPath => exact .inr rfl
        | missing | file => cases same
      · cases hinders with
        | loop => exact .inl rfl
        | longName | longPath => exact .inr rfl
        | missing _ absent ordinary _ =>
            obtain ⟨node, stands, -⟩ := step.exists_node ordinary
            cases absent.symm.trans stands
        | file ordinary stands more =>
            obtain ⟨node, found, last⟩ := step.exists_node ordinary
            exact absurd (last _ (Option.some.inj (found.symm.trans stands))) more

/-- A path that leads somewhere is resolved to where it leads, unless there are too many links or
too long names on the way. -/
theorem Sound.realpath_of_leadsTo (sound : disk.Sound) {path : Path} {place : Location}
    (leads : disk.LeadsTo path place) :
    disk.realpath path = .ok (pathOf place) ∨ disk.realpath path = .error .linkLoop ∨
      disk.realpath path = .error .nameTooLong := by
  have comes := sound.comes_realpath path
  generalize disk.realpath path = outcome at comes
  cases comes with
  | ok also => exact .inl (by rw [leads.unique also])
  | error fails => exact .inr ((leads.cause_of_fails fails).imp (congrArg _) (congrArg _))

end Walks
end Disk
end LuaCoverage
