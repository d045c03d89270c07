import LuaCoverage.Coverage.Basic
import LuaCoverage.Coverage.Figures
import LuaCoverage.Text.Lines

/-!
# Reports

A report has one outcome for every selected file.  A file that cannot be read or that the grammar
rejects is reported as failed and does not affect the others.
-/

namespace LuaCoverage

/-- A grammar finds the statement lines of a source, or says what is wrong with it.  The path is
only for messages. -/
abbrev Grammar := Path → String → Except Error StatementLines

/-- A file whose source is known. -/
structure AnalyzedFile where
  /-- Hits of the file. -/
  file : FileHits
  /-- Lines of the source, without their endings. -/
  source : List String
  /-- Lines on which statements start. -/
  statements : StatementLines
  /-- Figures of the file, which follow from its hits and statements unless they are given. -/
  figures : Figures := Figures.ofFile file statements

namespace AnalyzedFile

/-- Read and analyze a file. -/
def load (system : FileSystem) (grammar : Grammar) (file : FileHits) :
    Except Error AnalyzedFile := do
  let octets ← (system.read file.path).mapError Error.unreadable
  let text := Utf8.decode octets
  let statements ← grammar file.path text
  return { file, source := Lines.ofText text, statements }

end AnalyzedFile

/-- What came of analyzing a file. -/
inductive Outcome
  /-- The file is analyzed. -/
  | analyzed (file : AnalyzedFile)
  /-- The file cannot be analyzed, for the given reason. -/
  | failed (file : FileHits) (reason : String)

namespace Outcome

/-- The hits of a file. -/
def file : Outcome → FileHits
  | analyzed file => file.file
  | failed file _ => file

/-- The outcome for a file. -/
def ofFile (system : FileSystem) (grammar : Grammar) (file : FileHits) : Outcome :=
  match AnalyzedFile.load system grammar file with
  | .ok file => .analyzed file
  | .error error => .failed file error.message

/-- The warning that a failed file deserves. -/
def warning? : Outcome → Option Event
  | analyzed _ => none
  | failed file reason => some (.fileSkipped file.path reason)

end Outcome

/-- Outcomes for the selected files of a profile. -/
structure Report where
  /-- Number of records behind the profile. -/
  totalPoints : Nat
  /-- Number of files in the profile, selected or not. -/
  totalFiles : Nat
  /-- Outcomes of the selected files in their order. -/
  outcomes : List Outcome

/-- Analyze the selected files of a profile. -/
def Coverage.report (system : FileSystem) (grammar : Grammar) (filter : Option String)
    (coverage : Coverage) : Report where
  totalPoints := coverage.points
  totalFiles := coverage.files.length
  outcomes := (coverage.filesNamed filter).map (Outcome.ofFile system grammar)

/-- The warnings that a report deserves, in the order of its files. -/
def Report.warnings (report : Report) : List Event :=
  report.outcomes.filterMap Outcome.warning?

end LuaCoverage
