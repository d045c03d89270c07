import LuaCoverage.Proofs.Coverage.Executions
import LuaCoverage.Proofs.Profile.RoundTrip
import Mathlib.Logic.Relation

/-!
# The same hits recorded in another way

Entries of a profile can be recorded in another order, with other spellings of their tags, and with
other tags among them that are passed over.  This has no effect on whether the profile loads nor on
what its coverage holds, and without another order it has none on the order of the files.
-/

namespace LuaCoverage
namespace Profile

namespace Entry

/-- Two entries with the same hits whose tags name the same line of two sources that lead to the
same file. -/
structure Respells (system : FileSystem) (root : Path) (before after : Entry) : Prop where
  /-- The hits are the same. -/
  count : before.count = after.count
  /-- The tags name one line, of sources that lead to one file. -/
  leads : ∃ (source other : String) (line : Nat) (path : Path),
    before.reading = .located source line ∧
    after.reading = .located other line ∧
    system.findSource root source (Tag.render source line) = .ok path ∧
    system.findSource root other (Tag.render other line) = .ok path

theorem Respells.leads_raw {system : FileSystem} {root : Path} {before after : Entry}
    (respells : before.Respells system root after) :
    ∃ (source other : String) (line : Nat) (path : Path),
      before.raw.reading = .located source line ∧
      after.raw.reading = .located other line ∧
      system.findSource root source (Tag.render source line) = .ok path ∧
      system.findSource root other (Tag.render other line) = .ok path := by
  simpa only [raw_reading] using respells.leads

/-- What is wrong with an entry. -/
def offence? (system : FileSystem) (root : Path) (entry : Entry) : Option Error :=
  entry.raw.offence? system root

/-- What an entry says was executed. -/
def execution? (system : FileSystem) (root : Path) (entry : Entry) : Option Execution :=
  (entry.raw.credit? system root).map Credit.execution

/-- Something read off entries that does not depend on spellings and that ignores the entries that
are passed over. -/
structure IgnoresSpelling {α : Type} (system : FileSystem) (root : Path) (view : Entry → Option α) :
    Prop where
  /-- The spelling has no part in it. -/
  respelled : ∀ before after : Entry, before.Respells system root after → view before = view after
  /-- Nothing is read off an entry that is passed over. -/
  passed : ∀ entry : Entry, entry.reading = .passed → view entry = none

variable (system : FileSystem) (root : Path)

theorem offence?_ignoresSpelling : IgnoresSpelling system root (offence? system root) where
  respelled before after respells := by
    obtain ⟨source, other, line, path, before_reads, after_reads, before_leads, after_leads⟩ :=
      respells.leads_raw
    rw [offence?, offence?, RawRecord.offence?_found before_reads before_leads,
      RawRecord.offence?_found after_reads after_leads]
  passed entry passed := RawRecord.offence?_passed ((raw_reading entry).trans passed)

theorem execution?_ignoresSpelling : IgnoresSpelling system root (execution? system root) where
  respelled before after respells := by
    obtain ⟨source, other, line, path, before_reads, after_reads, before_leads, after_leads⟩ :=
      respells.leads_raw
    rw [execution?, execution?, RawRecord.credit?_found before_reads before_leads,
      RawRecord.credit?_found after_reads after_leads]
    simp only [Option.map_some, Credit.execution, raw, respells.count]
  passed entry passed := by
    rw [execution?, RawRecord.credit?_passed ((raw_reading entry).trans passed), Option.map_none]

end Entry

/-- One change to entries that keeps their order. -/
inductive Respelling (system : FileSystem) (root : Path) : List Entry → List Entry → Prop
  /-- A tag is spelled in another way. -/
  | replace (front behind : List Entry) {before after : Entry}
      (respells : before.Respells system root after) :
      Respelling system root (front ++ before :: behind) (front ++ after :: behind)
  /-- An entry that is passed over is put in. -/
  | insert (front behind : List Entry) {entry : Entry} (passed : entry.reading = .passed) :
      Respelling system root (front ++ behind) (front ++ entry :: behind)
  /-- An entry that is passed over is taken out. -/
  | remove (front behind : List Entry) {entry : Entry} (passed : entry.reading = .passed) :
      Respelling system root (front ++ entry :: behind) (front ++ behind)

/-- One change to entries or to their order. -/
inductive Rerecording (system : FileSystem) (root : Path) : List Entry → List Entry → Prop
  /-- The order is changed. -/
  | reorder {before after : List Entry} (perm : before.Perm after) :
      Rerecording system root before after
  /-- The order is kept. -/
  | respell {before after : List Entry} (respelling : Respelling system root before after) :
      Rerecording system root before after

/-- Entries after any changes that keep their order. -/
def Respelled (system : FileSystem) (root : Path) : List Entry → List Entry → Prop :=
  Relation.ReflTransGen (Respelling system root)

/-- Entries after any changes. -/
def Rerecorded (system : FileSystem) (root : Path) : List Entry → List Entry → Prop :=
  Relation.ReflTransGen (Rerecording system root)

section Views

variable {α : Type} {system : FileSystem} {root : Path} {view : Entry → Option α}
  {before after : List Entry}

theorem Respelling.filterMap_eq (respelling : Respelling system root before after)
    (ignores : Entry.IgnoresSpelling system root view) :
    before.filterMap view = after.filterMap view := by
  cases respelling with
  | replace front behind respells => simp [List.filterMap_cons, ignores.respelled _ _ respells]
  | insert front behind passed => simp [ignores.passed _ passed]
  | remove front behind passed => simp [ignores.passed _ passed]

theorem Respelled.filterMap_eq (respelled : Respelled system root before after)
    (ignores : Entry.IgnoresSpelling system root view) :
    before.filterMap view = after.filterMap view := by
  induction respelled with
  | refl => rfl
  | tail _ respelling ih => exact ih.trans (respelling.filterMap_eq ignores)

theorem Rerecorded.filterMap_perm (rerecorded : Rerecorded system root before after)
    (ignores : Entry.IgnoresSpelling system root view) :
    (before.filterMap view).Perm (after.filterMap view) := by
  induction rerecorded with
  | refl => exact .refl _
  | tail _ rerecording ih =>
      apply ih.trans
      cases rerecording with
      | reorder perm => exact perm.filterMap view
      | respell respelling => exact .of_eq (respelling.filterMap_eq ignores)

end Views

section Loading

variable {system : FileSystem} {root : Path} {entries : List Entry}

theorem splits_entries (storable : ∀ entry ∈ entries, entry.Storable) :
    Splits (encode entries) (entries.map Entry.raw) [] := by
  have splits := splits_encode storable incomplete_nil
  rwa [List.append_nil] at splits

theorem exists_ofProfile_encode_iff (storable : ∀ entry ∈ entries, entry.Storable) :
    (∃ coverage, (Coverage.ofProfile system root (encode entries)).1 = .ok coverage) ↔
      entries.filterMap (Entry.offence? system root) = [] := by
  rw [Coverage.exists_ofProfile_iff (splits_entries storable), List.findSome?_map,
    ← List.head?_filterMap, List.head?_eq_none_iff]
  rfl

theorem executions_raw (entries : List Entry) :
    ((entries.map Entry.raw).filterMap (·.credit? system root)).map Credit.execution =
      entries.filterMap (Entry.execution? system root) := by
  rw [List.filterMap_map, List.map_filterMap]
  rfl

/-- A coverage of stored entries holds what the entries say was executed. -/
theorem exists_credits_of_ofProfile (storable : ∀ entry ∈ entries, entry.Storable)
    {coverage : Coverage}
    (loaded : (Coverage.ofProfile system root (encode entries)).1 = .ok coverage) :
    ∃ credits : List Credit, coverage.Reflects credits ∧
      credits.map Credit.execution = entries.filterMap (Entry.execution? system root) :=
  ⟨_, Coverage.reflects_of_ofProfile (splits_entries storable) loaded, executions_raw entries⟩

end Loading
end Profile
end LuaCoverage
