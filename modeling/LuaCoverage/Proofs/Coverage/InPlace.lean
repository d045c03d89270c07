import LuaCoverage.Coverage.Tally

/-!
# Adding in place

An addition is a sequence of changes to a tally, each of which stays even if a later step fails.
The only step that can fail stands before all changes, so a refused record leaves the tally as it
was, and an addition in place comes to the same as one that builds a new tally.
-/

namespace LuaCoverage
namespace Tally

/-- Steps that change a tally in place; a failure takes no change back. -/
abbrev Action := EStateM Error Tally

/-- Find where the file of a record stands, and change the tally so that it knows the file. -/
def locateInPlace (system : FileSystem) (record : Record) : Action (Nat × List Event) := do
  let tally ← get
  match tally.indexOfSource[record.source]? with
  | some index => return (index, [])
  | none =>
      let path ← MonadExcept.ofExcept
        (system.findSource tally.root record.source (Tag.render record.source record.line))
      match tally.indexOfPath[path]? with
      | some index =>
          modify (·.remember record.source index)
          return (index, [.merged record.source path])
      | none =>
          let index := tally.files.size
          modify (·.append path)
          modify (·.remember record.source index)
          return (index, [])

/-- Add a record to its file. -/
def addInPlace (system : FileSystem) (record : Record) : Action (List Event) := do
  let (index, events) ← locateInPlace system record
  modify (·.credit index record)
  return events

theorem run_locateInPlace (system : FileSystem) (tally : Tally) (record : Record) :
    (locateInPlace system record).run tally =
      match tally.locate system record with
      | .error error => .error error tally
      | .ok (index, located, events) => .ok (index, events) located := by
  rw [locate]
  cases known : tally.indexOfSource[record.source]? with
  | some index =>
      simp only [locateInPlace, EStateM.run_bind, EStateM.run_get, known]
      rfl
  | none =>
      cases found : system.findSource tally.root record.source
        (Tag.render record.source record.line) with
      | error error =>
          simp only [locateInPlace, EStateM.run_bind, EStateM.run_get, known, found]
          rfl
      | ok path =>
          have looked : (MonadExcept.ofExcept (.ok path) : Action Path).run tally =
              .ok path tally := rfl
          simp only [locateInPlace, EStateM.run_bind, EStateM.run_get, known, found, looked]
          cases tally.indexOfPath[path]? <;> rfl

/-- An addition in place fails exactly if the record is refused, and then nothing is changed; else
it makes the tally that the addition leads to. -/
theorem run_addInPlace (system : FileSystem) (tally : Tally) (record : Record) :
    (addInPlace system record).run tally =
      match tally.add system record with
      | .error error => .error error tally
      | .ok (grown, events) => .ok events grown := by
  have located := run_locateInPlace system tally record
  rw [addInPlace, EStateM.run_bind, located, add]
  cases tally.locate system record with
  | error error => rfl
  | ok parts => rfl

/-- A record that is refused in place leaves the tally as it was. -/
theorem add_of_addInPlace_error {system : FileSystem} {tally later : Tally} {record : Record}
    {error : Error} (failed : (addInPlace system record).run tally = .error error later) :
    later = tally ∧ tally.add system record = .error error := by
  rw [run_addInPlace] at failed
  cases added : tally.add system record with
  | error cause =>
      rw [added] at failed
      cases failed
      exact ⟨rfl, rfl⟩
  | ok parts =>
      rw [added] at failed
      cases failed

end Tally
end LuaCoverage
