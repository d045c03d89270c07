import LuaCoverage.Proofs.Coverage.Content
import LuaCoverage.Proofs.Report.Json.Reading
import Std.Data.String.ToNat

/-!
# Reading reports from JSON

A reader that knows the names of the members takes from a document what it says about a profile and
its files.  Members may stand in any order, but no key may stand twice.  What it reads from a
report are the totals and, for every outcome, exactly what is known of the file; two reports with
the same text therefore say the same.
-/

namespace LuaCoverage

/-- What a report says about a file. -/
structure FileDigest where
  /-- The name of the file. -/
  name : String
  /-- The path as text. -/
  path : String
  /-- The number of covered lines, if it is stated. -/
  covered? : Option Nat
  /-- The number of statement lines, if it is stated. -/
  executable? : Option Nat
  /-- The whole percentage, if it is stated. -/
  percentage? : Option Nat
  /-- Lines with their counts, in the order of the document. -/
  lines : List (Nat × Nat)
  /-- What is wrong with the file, if anything is stated. -/
  error? : Option String
  deriving DecidableEq

/-- What a report says about a profile. -/
structure ReportDigest where
  /-- The number of records. -/
  totalPoints : Nat
  /-- The number of files. -/
  totalFiles : Nat
  /-- What is said about the selected files. -/
  files : List FileDigest
  deriving DecidableEq

/-! ## Reading documents -/

namespace Json

/-- The value of a number. -/
def number? : Json → Option Nat
  | .number value => some value
  | _ => none

/-- The characters of a string. -/
def text? : Json → Option String
  | .text value => some value
  | _ => none

/-- The items of an array. -/
def items? : Json → Option (List Json)
  | .array items => some items.toList
  | _ => none

/-- The members of an object in which no key stands twice. -/
def members? : Json → Option (List (String × Json))
  | .object members =>
      if (members.toList.map Prod.fst).Nodup then some members.toList else none
  | _ => none

/-- The value of a member that must be there. -/
def member? {α : Type} (read : Json → Option α) (members : List (String × Json))
    (key : String) : Option α :=
  (members.lookup key).bind read

/-- The value of a member that may be missing; one that is there must be readable. -/
def optional? {α : Type} (read : Json → Option α) (members : List (String × Json))
    (key : String) : Option (Option α) :=
  match members.lookup key with
  | none => some none
  | some value => (read value).map some

/-- Counts by line, each under the number of its line. -/
def lines? (document : Json) : Option (List (Nat × Nat)) := do
  (← document.members?).mapM fun (key, value) =>
    return (← Decimal.ofDigits? key.toList, ← value.number?)

end Json

open Json

/-- What a document says about a file. -/
def FileDigest.ofJson? (document : Json) : Option FileDigest := do
  let members ← document.members?
  return {
    name := ← member? text? members "name"
    path := ← member? text? members "path"
    covered? := ← optional? number? members "covered"
    executable? := ← optional? number? members "executable"
    percentage? := ← optional? number? members "percentage"
    lines := ← member? lines? members "lines"
    error? := ← optional? text? members "error" }

/-- What a document says about a profile. -/
def ReportDigest.ofJson? (document : Json) : Option ReportDigest := do
  let members ← document.members?
  return {
    totalPoints := ← member? number? members "total_points"
    totalFiles := ← member? number? members "total_files"
    files := ← (← member? items? members "files").mapM FileDigest.ofJson? }

/-! ## What is known of a file -/

namespace Outcome

/-- The figures of an outcome, if the file is analyzed. -/
def figures? : Outcome → Option Figures
  | analyzed file => some file.figures
  | failed _ _ => none

/-- The reason of a failure. -/
def reason? : Outcome → Option String
  | analyzed _ => none
  | failed _ reason => some reason

/-- All that is known of a file. -/
def digest (outcome : Outcome) : FileDigest where
  name := outcome.file.name
  path := outcome.file.path.text
  covered? := outcome.figures?.map (·.covered.toNat)
  executable? := outcome.figures?.map (·.executable.toNat)
  percentage? := outcome.figures?.map (·.percentage.toNat)
  lines := outcome.file.lines.toList.map fun (line, count) => (line, count.toNat)
  error? := outcome.reason?

end Outcome

/-- All that a report says. -/
def Report.digest (report : Report) : ReportDigest where
  totalPoints := report.totalPoints
  totalFiles := report.totalFiles
  files := report.outcomes.map Outcome.digest

/-! ## Documents of reports -/

namespace LineCounts

/-- No two lines are written alike. -/
theorem nodup_keys (lines : LineCounts) :
    ((lines.toList.map fun (line, count) => (line.repr, number count.toNat)).map
      Prod.fst).Nodup := by
  rw [List.map_map, List.Nodup, List.pairwise_map]
  refine (List.pairwise_map.mp lines.ascending).imp fun {entry other} lower same => ?_
  have equal : entry.1 = other.1 := Nat.repr_injective same
  exact Nat.ne_of_lt lower equal

theorem lines?_json (lines : LineCounts) :
    lines.json.lines? = some (lines.toList.map fun (line, count) => (line, count.toNat)) := by
  have members : lines.json.members? =
      some (lines.toList.map fun (line, count) => (line.repr, number count.toNat)) := by
    rw [json, members?, JsonMembers.toList_ofList, if_pos lines.nodup_keys]
  rw [Json.lines?, members]
  simp only [bind, Option.bind_some, List.mapM_map, Function.comp_def, Decimal.ofDigits?_repr,
    number?]
  exact List.mapM_pure

end LineCounts

theorem Outcome.ofJson?_json (outcome : Outcome) :
    FileDigest.ofJson? outcome.json = some outcome.digest := by
  cases outcome <;>
    simp [FileDigest.ofJson?, json, members?, member?, optional?, digest, text?, number?,
      figures?, reason?, List.lookup_cons, LineCounts.lines?_json]

theorem Report.ofJson?_document (report : Report) :
    ReportDigest.ofJson? report.document = some report.digest := by
  have files : (report.outcomes.map Outcome.json).mapM FileDigest.ofJson? =
      some (report.outcomes.map Outcome.digest) := by
    rw [List.mapM_map, Function.comp_def]
    simp only [Outcome.ofJson?_json]
    exact List.mapM_pure
  simp [ReportDigest.ofJson?, document, members?, member?, number?, items?, digest,
    List.lookup_cons, files]

/-! ## Texts of reports -/

/-- What is said about a file, for an outcome. -/
structure FileDigest.Shows (outcome : Outcome) (digest : FileDigest) : Prop where
  /-- The name is that of the file. -/
  name : digest.name = outcome.file.name
  /-- The path is that of the file. -/
  path : digest.path = outcome.file.path.text
  /-- Every line stands once, in ascending order. -/
  ascending : (digest.lines.map Prod.fst).Pairwise (· < ·)
  /-- Exactly the recorded lines stand there, with their counts. -/
  lines : ∀ line count, (line, count) ∈ digest.lines ↔
    outcome.file.lines[line]?.map UInt64.toNat = some count
  /-- The covered lines are stated exactly for an analyzed file. -/
  covered : ∀ covered, digest.covered? = some covered ↔
    ∃ file, outcome = .analyzed file ∧ file.figures.covered.toNat = covered
  /-- The statement lines are stated exactly for an analyzed file. -/
  executable : ∀ executable, digest.executable? = some executable ↔
    ∃ file, outcome = .analyzed file ∧ file.figures.executable.toNat = executable
  /-- The percentage is stated exactly for an analyzed file. -/
  percentage : ∀ percentage, digest.percentage? = some percentage ↔
    ∃ file, outcome = .analyzed file ∧ file.figures.percentage.toNat = percentage
  /-- The reason is stated exactly for a failure. -/
  error : ∀ reason, digest.error? = some reason ↔ ∃ file, outcome = .failed file reason

theorem Outcome.digest_shows (outcome : Outcome) : outcome.digest.Shows outcome where
  name := rfl
  path := rfl
  ascending := by
    rw [digest, List.map_map]
    exact outcome.file.lines.ascending
  lines _ _ := LineCounts.mem_map_toNat
  covered covered := by cases outcome <;> simp [digest, figures?]
  executable executable := by cases outcome <;> simp [digest, figures?]
  percentage percentage := by cases outcome <;> simp [digest, figures?]
  error reason := by cases outcome <;> simp [digest, reason?]

/-- The printed document says what the report says. -/
theorem Report.ofJson?_read?_print (report : Report) :
    (Json.read? (report.document.print 0)).bind ReportDigest.ofJson? = some report.digest := by
  rw [Json.read?_print, Option.bind_some, report.ofJson?_document]

/-- The text of a report is, up to the line feed at its end, one JSON document.  Read by the names
of the members it gives back the totals and, for every outcome in order, the name and the path, the
recorded lines with their counts, the figures of an analyzed file and the reason of a failure.
Reports that differ in any of these have different texts. -/
theorem Report.json_reads_back (report : Report) :
    (∃ text document, report.json = text ++ "\n" ∧ Json.read? text = some document ∧
        ReportDigest.ofJson? document = some report.digest) ∧
      report.digest.totalPoints = report.totalPoints ∧
      report.digest.totalFiles = report.totalFiles ∧
      List.Forall₂ FileDigest.Shows report.outcomes report.digest.files ∧
      ∀ other : Report, report.digest ≠ other.digest → report.json ≠ other.json := by
  refine ⟨⟨report.document.print 0, report.document, rfl, Json.read?_print 0 report.document,
    report.ofJson?_document⟩, rfl, rfl, ?_, ?_⟩
  · rw [digest, List.forall₂_map_right_iff, List.forall₂_same]
    exact fun outcome _ => outcome.digest_shows
  · intro other different same
    have printed : report.document.print 0 = other.document.print 0 :=
      (String.append_left_inj "\n").mp same
    have said := report.ofJson?_read?_print
    rw [printed, other.ofJson?_read?_print] at said
    exact different (Option.some.inj said).symm

end LuaCoverage
