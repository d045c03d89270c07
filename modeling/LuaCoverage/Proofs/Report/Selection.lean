import LuaCoverage.Proofs.Report.Blocks

/-!
# Selecting files of a report

Every file is analyzed on its own: its outcome follows from what reading it gives and from the
grammar.  A filter leaves out the outcomes of files with other names and changes nothing else, so a
report on some files consists of their blocks in the report on all files.
-/

namespace LuaCoverage

/-- What comes of a file when it is read and analyzed, whatever comes of other files. -/
inductive Outcome.ComesOf (system : FileSystem) (grammar : Grammar) (file : FileHits) :
    Outcome → Prop
  /-- The file cannot be read. -/
  | unreadable {cause : IoError} (refused : system.read file.path = .error cause) :
      ComesOf system grammar file (.failed file (Error.unreadable cause).message)
  /-- The grammar rejects the text. -/
  | rejected {octets : List UInt8} {error : Error} (read : system.read file.path = .ok octets)
      (refused : grammar file.path (Utf8.decode octets) = .error error) :
      ComesOf system grammar file (.failed file error.message)
  /-- The grammar finds the statement lines of the text. -/
  | analyzed {octets : List UInt8} {statements : StatementLines}
      (read : system.read file.path = .ok octets)
      (parsed : grammar file.path (Utf8.decode octets) = .ok statements) :
      ComesOf system grammar file
        (.analyzed { file, source := Lines.ofText (Utf8.decode octets), statements })

/-- A file that cannot be read or that the grammar rejects. -/
def FileHits.Unanalyzable (system : FileSystem) (grammar : Grammar) (file : FileHits) : Prop :=
  (∃ cause, system.read file.path = .error cause) ∨
    ∃ octets error, system.read file.path = .ok octets ∧
      grammar file.path (Utf8.decode octets) = .error error

namespace Outcome

/-- Whether an outcome is a failure. -/
def Failed (outcome : Outcome) : Prop := ∃ file reason, outcome = .failed file reason

section File

variable {system other : FileSystem} {grammar : Grammar} {file : FileHits} {outcome : Outcome}

theorem ofFile_comesOf (system : FileSystem) (grammar : Grammar) (file : FileHits) :
    ComesOf system grammar file (ofFile system grammar file) := by
  rw [ofFile, AnalyzedFile.load]
  cases read : system.read file.path with
  | error cause => exact .unreadable read
  | ok octets =>
      cases parsed : grammar file.path (Utf8.decode octets) with
      | error error =>
          simp only [Except.mapError, bind, Except.bind, parsed]
          exact .rejected read parsed
      | ok statements =>
          simp only [Except.mapError, bind, Except.bind, parsed, pure, Except.pure]
          exact .analyzed read parsed

theorem ComesOf.file_eq (comes : ComesOf system grammar file outcome) : outcome.file = file := by
  cases comes <;> rfl

theorem ComesOf.failed_iff (comes : ComesOf system grammar file outcome) :
    outcome.Failed ↔ file.Unanalyzable system grammar := by
  cases comes with
  | unreadable refused => exact iff_of_true ⟨_, _, rfl⟩ (.inl ⟨_, refused⟩)
  | rejected read refused => exact iff_of_true ⟨_, _, rfl⟩ (.inr ⟨_, _, read, refused⟩)
  | analyzed read parsed =>
      apply iff_of_false
      · rintro ⟨_, _, same⟩
        cases same
      · rintro (⟨cause, unreadable⟩ | ⟨octets, error, readAgain, rejected⟩)
        · rw [read] at unreadable
          cases unreadable
        · rw [read] at readAgain
          cases readAgain
          rw [parsed] at rejected
          cases rejected

/-- Nothing but what reading a file gives decides on its outcome. -/
theorem ofFile_congr (grammar : Grammar) (agree : system.read file.path = other.read file.path) :
    ofFile system grammar file = ofFile other grammar file := by
  rw [ofFile, ofFile, AnalyzedFile.load, AnalyzedFile.load, agree]

end File
end Outcome

namespace Report

/-- A report is made of the blocks that some outcomes have in another report, behind the totals of
that report. -/
structure Selects (whole part : Report) (chosen : Outcome → Bool) : Prop where
  /-- The text is the header and the chosen blocks. -/
  text : ∀ options : TextOptions,
    whole.text options =
      whole.header ++ String.join (whole.outcomes.map (Outcome.text options)) ∧
    part.text options =
      whole.header ++ String.join ((whole.outcomes.filter chosen).map (Outcome.text options))
  /-- The document is the totals and the chosen blocks. -/
  json :
    whole.json =
      jsonOf whole.totalPoints whole.totalFiles
        (whole.outcomes.map fun outcome => outcome.json.print 2) ∧
    part.json =
      jsonOf whole.totalPoints whole.totalFiles
        ((whole.outcomes.filter chosen).map fun outcome => outcome.json.print 2)
  /-- The tracefile is the chosen blocks. -/
  tracefile :
    whole.tracefile =
      String.join (whole.outcomes.map fun outcome => Lines.toText outcome.traceBlock.rows) ∧
    part.tracefile =
      String.join
        ((whole.outcomes.filter chosen).map fun outcome => Lines.toText outcome.traceBlock.rows)

theorem filter_selects (whole : Report) (chosen : Outcome → Bool) :
    whole.Selects { whole with outcomes := whole.outcomes.filter chosen } chosen where
  text options := ⟨whole.text_eq_blocks options, text_eq_blocks _ options⟩
  json := ⟨whole.json_eq_blocks, json_eq_blocks _⟩
  tracefile := ⟨whole.tracefile_eq_blocks, tracefile_eq_blocks _⟩

end Report

namespace Coverage

variable (system : FileSystem) (grammar : Grammar) (coverage : Coverage)

/-- Selecting files before the analysis selects outcomes after it. -/
theorem report_some (name : String) :
    coverage.report system grammar (some name) =
      { coverage.report system grammar none with
        outcomes :=
          (coverage.report system grammar none).outcomes.filter (·.file.name == name) } := by
  have names (file : FileHits) : (Outcome.ofFile system grammar file).file = file :=
    (Outcome.ofFile_comesOf system grammar file).file_eq
  simp only [report, filesNamed, List.filter_map, Function.comp_def, names]

theorem getElem?_outcomes (filter : Option String) (index : Nat) :
    (coverage.report system grammar filter).outcomes[index]? =
      (coverage.filesNamed filter)[index]?.map (Outcome.ofFile system grammar) :=
  List.getElem?_map

/-- The outcome of a file does not depend on what reading other files gives. -/
theorem getElem?_outcomes_congr {other : FileSystem} {filter : Option String} {index : Nat}
    {file : FileHits} (stands : (coverage.filesNamed filter)[index]? = some file)
    (agree : system.read file.path = other.read file.path) :
    (coverage.report system grammar filter).outcomes[index]? =
      (coverage.report other grammar filter).outcomes[index]? := by
  rw [getElem?_outcomes, getElem?_outcomes, stands, Option.map_some, Option.map_some,
    Outcome.ofFile_congr grammar agree]

/-- What a report has to do with the files of a profile.  Every selected file has one outcome, in
the order of the files, and it is a failure exactly if the file cannot be read or the grammar
rejects it; the totals do not depend on the filter; and a filter by name leaves the outcomes of the
files with that name.  A file has the same outcome and the same block in every form on all file
systems on which reading it gives the same.  So a report on the files with a name is, in every form,
the totals and their blocks in the report on all files. -/
theorem report_selects_locally (system : FileSystem) (grammar : Grammar) (coverage : Coverage) :
    (∀ filter : Option String,
      List.Forall₂
        (fun file outcome => outcome.file = file ∧ Outcome.ComesOf system grammar file outcome ∧
          (outcome.Failed ↔ file.Unanalyzable system grammar))
        (coverage.files.filter fun file => filter.all (file.name == ·))
        (coverage.report system grammar filter).outcomes ∧
      (coverage.report system grammar filter).totalPoints = coverage.points ∧
      (coverage.report system grammar filter).totalFiles = coverage.files.length) ∧
    (∀ name : String,
      (coverage.report system grammar (some name)).outcomes =
        (coverage.report system grammar none).outcomes.filter (·.file.name == name)) ∧
    (∀ (other : FileSystem) (filter : Option String) (index : Nat) (file : FileHits),
      (coverage.filesNamed filter)[index]? = some file →
      system.read file.path = other.read file.path →
      let here := coverage.report system grammar filter
      let there := coverage.report other grammar filter
      here.outcomes[index]? = there.outcomes[index]? ∧
      (∀ options, (here.textBlocks options)[index]? = (there.textBlocks options)[index]?) ∧
      here.jsonBlocks[index]? = there.jsonBlocks[index]? ∧
      here.tracefileBlocks[index]? = there.tracefileBlocks[index]?) ∧
    ∀ name : String,
      (coverage.report system grammar none).Selects
        (coverage.report system grammar (some name)) (·.file.name == name) := by
  refine ⟨fun filter => ⟨?_, rfl, rfl⟩, ?_, ?_, ?_⟩
  · have selected : coverage.filesNamed filter =
        coverage.files.filter fun file => filter.all (file.name == ·) := by
      cases filter with
      | none => exact (List.filter_eq_self.mpr fun _ _ => rfl).symm
      | some name => rfl
    rw [← selected, report, List.forall₂_map_right_iff, List.forall₂_same]
    intro file _
    have comes := Outcome.ofFile_comesOf system grammar file
    exact ⟨comes.file_eq, comes, comes.failed_iff⟩
  · intro name
    exact congrArg Report.outcomes (report_some system grammar coverage name)
  · intro other filter index file stands agree here there
    have same : here.outcomes[index]? = there.outcomes[index]? :=
      getElem?_outcomes_congr system grammar coverage stands agree
    refine ⟨same, fun options => ?_, ?_, ?_⟩
    · rw [Report.textBlocks, Report.textBlocks, List.getElem?_map, List.getElem?_map, same]
    · rw [Report.jsonBlocks, Report.jsonBlocks, List.getElem?_map, List.getElem?_map, same]
    · rw [Report.tracefileBlocks, Report.tracefileBlocks, List.getElem?_map, List.getElem?_map,
        same]
  · intro name
    rw [report_some]
    exact Report.filter_selects _ _

end Coverage
end LuaCoverage
