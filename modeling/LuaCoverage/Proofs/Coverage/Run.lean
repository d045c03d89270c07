import LuaCoverage.Proofs.Coverage.Addition
import LuaCoverage.Proofs.Coverage.Growth
import Mathlib.Data.List.Induction

/-!
# Runs of a tally

Records are tried one after another, each on the file system as it is then.  The first attempt that
finds a spelling decides where this spelling leads from then on.  After every attempt the tally is
exactly what the successful attempts say.
-/

namespace LuaCoverage

/-- A record that is to be added, and the file system at that time. -/
structure Attempt where
  /-- The file system. -/
  system : FileSystem
  /-- The record. -/
  record : Record

namespace Attempt

/-- What comes of looking up the source of an attempt. -/
def lookup (root : Path) (attempt : Attempt) : Except Error Path :=
  attempt.system.findSource root attempt.record.source
    (Tag.render attempt.record.source attempt.record.line)

/-- The file that an attempt finds for a spelling, if this is its own. -/
def finds? (root : Path) (source : String) (attempt : Attempt) : Option Path :=
  if attempt.record.source = source then (attempt.lookup root).toOption else none

/-- The file that the first successful attempt found for a spelling. -/
def firstFound (root : Path) (attempts : List Attempt) (source : String) : Option Path :=
  attempts.findSome? (finds? root source)

/-- The credits of attempts after earlier ones: an attempt succeeds if its spelling has been found
by then. -/
def creditsAfter (root : Path) (earlier : List Attempt) : List Attempt → List Credit
  | [] => []
  | attempt :: later =>
      ((firstFound root (earlier ++ [attempt]) attempt.record.source).map
        (⟨attempt.record, ·⟩)).toList ++ creditsAfter root (earlier ++ [attempt]) later

/-- The credits of the successful attempts, in order. -/
def credits (root : Path) (attempts : List Attempt) : List Credit := creditsAfter root [] attempts

theorem firstFound_append (root : Path) (attempts : List Attempt) (attempt : Attempt)
    (source : String) :
    firstFound root (attempts ++ [attempt]) source =
      (firstFound root attempts source).or (attempt.finds? root source) := by
  rw [firstFound, List.findSome?_append, List.findSome?_singleton, firstFound]

theorem finds?_of_ok {root path : Path} {attempt : Attempt}
    (found : attempt.lookup root = .ok path) (source : String) :
    attempt.finds? root source = if attempt.record.source = source then some path else none := by
  rw [finds?, found]
  rfl

theorem finds?_of_error {root : Path} {attempt : Attempt} {error : Error}
    (refused : attempt.lookup root = .error error) (source : String) :
    attempt.finds? root source = none := by
  rw [finds?, refused]
  exact ite_self none

/-- A later attempt does not change where a spelling leads. -/
theorem firstFound_append_of_known {root path : Path} {attempts : List Attempt}
    {attempt : Attempt} (known : firstFound root attempts attempt.record.source = some path) :
    firstFound root (attempts ++ [attempt]) = firstFound root attempts := by
  funext source
  rw [firstFound_append, finds?]
  by_cases same : attempt.record.source = source
  · rw [← same, known, Option.some_or]
  · rw [if_neg same, Option.or_none]

theorem creditsAfter_append (root : Path) (earlier attempts : List Attempt) (attempt : Attempt) :
    creditsAfter root earlier (attempts ++ [attempt]) =
      creditsAfter root earlier attempts ++
        ((firstFound root (earlier ++ attempts ++ [attempt]) attempt.record.source).map
          (⟨attempt.record, ·⟩)).toList := by
  induction attempts generalizing earlier with
  | nil => simp [creditsAfter]
  | cons first attempts ih =>
      rw [List.cons_append, creditsAfter, ih, creditsAfter]
      simp only [List.append_assoc, List.cons_append, List.nil_append]

theorem credits_append (root : Path) (attempts : List Attempt) (attempt : Attempt) :
    credits root (attempts ++ [attempt]) =
      credits root attempts ++
        ((firstFound root (attempts ++ [attempt]) attempt.record.source).map
          (⟨attempt.record, ·⟩)).toList :=
  creditsAfter_append root [] attempts attempt

theorem credits_append_of_some {root path : Path} {attempts : List Attempt} {attempt : Attempt}
    (found : firstFound root (attempts ++ [attempt]) attempt.record.source = some path) :
    credits root (attempts ++ [attempt]) = credits root attempts ++ [⟨attempt.record, path⟩] := by
  rw [credits_append, found]
  rfl

theorem credits_append_of_none {root : Path} {attempts : List Attempt} {attempt : Attempt}
    (unknown : firstFound root (attempts ++ [attempt]) attempt.record.source = none) :
    credits root (attempts ++ [attempt]) = credits root attempts := by
  rw [credits_append, unknown]
  exact List.append_nil _

end Attempt

namespace Tally

/-- The tally after an attempt; one that fails leaves it as it is. -/
def attempt (tally : Tally) (attempt : Attempt) : Tally :=
  match tally.add attempt.system attempt.record with
  | .ok (grown, _) => grown
  | .error _ => tally

/-- The tally after some attempts. -/
def run (tally : Tally) (attempts : List Attempt) : Tally := attempts.foldl Tally.attempt tally

theorem run_append (tally : Tally) (attempts : List Attempt) (attempt : Attempt) :
    tally.run (attempts ++ [attempt]) = (tally.run attempts).attempt attempt := by
  rw [run, List.foldl_append, run]
  rfl

theorem attempt_of_ok {tally grown : Tally} {attempt : Attempt} {events : List Event}
    (added : tally.add attempt.system attempt.record = .ok (grown, events)) :
    tally.attempt attempt = grown := by
  rw [Tally.attempt, added]

theorem attempt_of_error {tally : Tally} {attempt : Attempt} {error : Error}
    (refused : tally.add attempt.system attempt.record = .error error) :
    tally.attempt attempt = tally := by
  rw [Tally.attempt, refused]

open Attempt in
/-- After every run the tally is what the successful attempts say, and spellings lead to the files
that were first found for them. -/
theorem run_reflects (root : Path) (attempts : List Attempt) :
    (run { root } attempts).Reflects root (credits root attempts) ∧
      Credit.destination (credits root attempts) = firstFound root attempts := by
  induction attempts using List.reverseRecOn with
  | nil => exact ⟨empty_reflects root, rfl⟩
  | append_singleton attempts attempt ih =>
      obtain ⟨reflects, same⟩ := ih
      rw [run_append]
      cases known : firstFound root attempts attempt.record.source with
      | some path =>
          have kept := firstFound_append_of_known known
          have credited := credits_append_of_some ((congrFun kept _).trans known)
          rw [← same] at known
          obtain ⟨index, -, added, grown⟩ := reflects.add_known attempt.system known
          rw [attempt_of_ok added, credited, kept, ← same]
          exact ⟨grown, funext (Credit.destination_append_of_known known)⟩
      | none =>
          have unknown := (congrFun same _).trans known
          cases found : attempt.lookup root with
          | error error =>
              have kept : firstFound root (attempts ++ [attempt]) = firstFound root attempts := by
                funext source
                rw [firstFound_append, finds?_of_error found, Option.or_none]
              have credited := credits_append_of_none ((congrFun kept _).trans known)
              rw [attempt_of_error (reflects.add_refused unknown found), credited, kept]
              exact ⟨reflects, same⟩
          | ok path =>
              have first :
                  firstFound root (attempts ++ [attempt]) attempt.record.source = some path := by
                rw [firstFound_append, known, Option.none_or, finds?_of_ok found, if_pos rfl]
              have credited := credits_append_of_some first
              obtain ⟨grown, events, added, grown_reflects⟩ := reflects.add_found unknown found
              rw [attempt_of_ok added, credited]
              refine ⟨grown_reflects, ?_⟩
              funext source
              rw [Credit.destination_append, same, firstFound_append, finds?_of_ok found]

theorem attempt_keeps (tally : Tally) (attempt : Attempt) :
    tally.Keeps (tally.attempt attempt) := by
  cases added : tally.add attempt.system attempt.record with
  | error error =>
      rw [attempt_of_error added]
      exact .refl tally
  | ok parts =>
      rw [attempt_of_ok added]
      exact keeps_of_add added

open Attempt in
/-- An attempt succeeds exactly if its spelling has been found by then. -/
theorem add_isOk_iff (root : Path) (attempts : List Attempt) (attempt : Attempt) :
    (∃ result, (run { root } attempts).add attempt.system attempt.record = .ok result) ↔
      ∃ path, firstFound root (attempts ++ [attempt]) attempt.record.source = some path := by
  obtain ⟨reflects, same⟩ := run_reflects root attempts
  rw [firstFound_append, ← same]
  cases known : Credit.destination (credits root attempts) attempt.record.source with
  | some path =>
      obtain ⟨index, -, added, -⟩ := reflects.add_known attempt.system known
      exact iff_of_true ⟨_, added⟩ ⟨path, Option.some_or⟩
  | none =>
      rw [Option.none_or]
      cases found : attempt.lookup root with
      | error error =>
          rw [finds?_of_error found, reflects.add_refused known found]
          simp
      | ok path =>
          obtain ⟨grown, events, added, -⟩ := reflects.add_found known found
          exact iff_of_true ⟨_, added⟩ ⟨path, by rw [finds?_of_ok found, if_pos rfl]⟩

open Attempt in
/-- What a tally holds after any attempts, each on a file system of its own.  A spelling that was
found keeps its file, whatever the file system says later; the files are those that were first found
for a spelling, each once and in order of the first success; both indices are exact; every line has
the hits of the successful attempts up to the greatest count; and no attempt moves, renames or
removes a file or lowers a count. -/
theorem run_follows_first_success (root : Path) (attempts : List Attempt) :
    (∀ (system : FileSystem) (record : Record) (path : Path),
      firstFound root attempts record.source = some path →
      ∃ index, (run { root } attempts).paths[index]? = some path ∧
        (run { root } attempts).add system record =
          .ok ((run { root } attempts).credit index record, [])) ∧
    (∀ attempt : Attempt,
      (∃ result, (run { root } attempts).add attempt.system attempt.record = .ok result) ↔
        ∃ path, firstFound root (attempts ++ [attempt]) attempt.record.source = some path) ∧
    (run { root } attempts).paths = ((credits root attempts).map (·.path)).eraseDups ∧
    (run { root } attempts).paths.Nodup ∧
    (∀ path, path ∈ (run { root } attempts).paths ↔
      ∃ source, firstFound root attempts source = some path) ∧
    (∀ (path : Path) (index : Nat),
      (run { root } attempts).indexOfPath[path]? = some index ↔
        (run { root } attempts).paths[index]? = some path) ∧
    (∀ (source : String) (index : Nat),
      (run { root } attempts).indexOfSource[source]? = some index ↔
        ∃ path, firstFound root attempts source = some path ∧
          (run { root } attempts).paths[index]? = some path) ∧
    (∀ (index : Nat) (file : FileHits), (run { root } attempts).files[index]? = some file →
      file.name = file.path.stem ∧
      (∀ line, line ∈ file.lines ↔
        ∃ credit ∈ credits root attempts, credit.Names file.path line) ∧
      ∀ line, (file.lines.getD line 0).toNat =
        min 18446744073709551615 (Credit.total (credits root attempts) file.path line)) ∧
    (run { root } attempts).points = (credits root attempts).length ∧
    ∀ (attempt : Attempt) (index : Nat) (file : FileHits),
      (run { root } attempts).files[index]? = some file →
      ∃ later, (run { root } (attempts ++ [attempt])).files[index]? = some later ∧
        file.Grows later := by
  obtain ⟨reflects, same⟩ := run_reflects root attempts
  refine ⟨?_, add_isOk_iff root attempts, reflects.paths, reflects.indexed.nodup_paths, ?_,
    reflects.indexed.ofPath, ?_, ?_, reflects.points, ?_⟩
  · intro system record path known
    rw [← same] at known
    obtain ⟨index, stands, added, -⟩ := reflects.add_known system known
    exact ⟨index, stands, added⟩
  · intro path
    rw [← same]
    exact reflects.mem_paths_iff_destination
  · rw [← same]
    exact reflects.indexed.ofSource
  · intro index file found
    have holds := reflects.files index file found
    exact ⟨holds.name, holds.named, holds.hits⟩
  · intro attempt
    rw [run_append]
    exact attempt_keeps _ attempt

end Tally
end LuaCoverage
