import LuaCoverage.Proofs.Coverage.Index

/-!
# Growth of a tally

Adding a record leaves every file where it stands, with its name and path, and lowers no count.
-/

namespace LuaCoverage

/-- A file with the same name and path, all lines and no smaller counts. -/
structure FileHits.Grows (before after : FileHits) : Prop where
  /-- The name is kept. -/
  name : after.name = before.name
  /-- The path is kept. -/
  path : after.path = before.path
  /-- No line is lost. -/
  lines : ∀ line, line ∈ before.lines → line ∈ after.lines
  /-- No count is lowered. -/
  hits : ∀ line, (before.lines.getD line 0).toNat ≤ (after.lines.getD line 0).toNat

namespace FileHits.Grows

theorem refl (file : FileHits) : file.Grows file where
  name := rfl
  path := rfl
  lines _ member := member
  hits _ := Nat.le_refl _

theorem trans {first second third : FileHits} (earlier : first.Grows second)
    (later : second.Grows third) : first.Grows third where
  name := later.name.trans earlier.name
  path := later.path.trans earlier.path
  lines line member := later.lines line (earlier.lines line member)
  hits line := Nat.le_trans (earlier.hits line) (later.hits line)

theorem addHits (file : FileHits) (line : Nat) (count : UInt64) :
    file.Grows (file.addHits line count) where
  name := rfl
  path := rfl
  lines other member := mem_addHits.mpr (Or.inr member)
  hits other := by
    rw [getD_addHits]
    split
    · next same =>
        subst same
        have fits := (file.lines.getD line 0).toNat_lt
        rw [Count.toNat_add]
        omega
    · exact Nat.le_refl _

end FileHits.Grows

/-- With further credits a file only grows. -/
theorem FileHits.Reflects.grows {before after : FileHits} {credits more : List Credit}
    (earlier : before.Reflects credits) (later : after.Reflects (credits ++ more))
    (same : after.path = before.path) : before.Grows after where
  name := by rw [later.name, earlier.name, same]
  path := same
  lines line member := by
    obtain ⟨credit, credited, names⟩ := (earlier.named line).mp member
    rw [← same] at names
    exact (later.named line).mpr ⟨credit, List.mem_append_left more credited, names⟩
  hits line := by
    have sum := Credit.total_append credits more before.path line
    rw [earlier.hits, later.hits, same]
    omega

namespace Tally

/-- Every file stays where it stands and only grows. -/
def Keeps (before after : Tally) : Prop :=
  ∀ (index : Nat) (file : FileHits), before.files[index]? = some file →
    ∃ later, after.files[index]? = some later ∧ file.Grows later

namespace Keeps

theorem refl (tally : Tally) : tally.Keeps tally :=
  fun _ file found => ⟨file, found, .refl file⟩

theorem trans {first second third : Tally} (earlier : first.Keeps second)
    (later : second.Keeps third) : first.Keeps third := by
  intro index file found
  obtain ⟨middle, middle_found, grows⟩ := earlier index file found
  obtain ⟨last, last_found, growsMore⟩ := later index middle middle_found
  exact ⟨last, last_found, grows.trans growsMore⟩

theorem credit (tally : Tally) (index : Nat) (record : Record) :
    tally.Keeps (tally.credit index record) := by
  intro other file found
  rw [getElem?_credit, found]
  split
  · exact ⟨_, rfl, .addHits file record.line record.count⟩
  · exact ⟨file, rfl, .refl file⟩

theorem append (tally : Tally) (path : Path) : tally.Keeps (tally.append path) := by
  intro index file found
  have inside : index ≠ tally.files.size := by
    rintro rfl
    rw [Array.getElem?_size] at found
    cases found
  refine ⟨file, ?_, .refl file⟩
  rw [Tally.append, Array.getElem?_push, if_neg inside, found]

end Keeps

theorem keeps_of_add {system : FileSystem} {tally grown : Tally} {record : Record}
    {events : List Event} (added : tally.add system record = .ok (grown, events)) :
    tally.Keeps grown := by
  obtain ⟨index, located, locates, rfl⟩ := exists_locates_of_add added
  refine Keeps.trans ?_ (.credit located index record)
  cases locates with
  | known | merged => exact .refl tally
  | new => exact .append tally _

end Tally
end LuaCoverage
