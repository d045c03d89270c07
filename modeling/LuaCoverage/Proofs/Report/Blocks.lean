import LuaCoverage.Proofs.Coverage.Content
import LuaCoverage.Report.Json
import LuaCoverage.Report.Text
import LuaCoverage.Report.Tracefile

/-!
# Blocks of reports

A report in any form is the blocks of its outcomes and what stands around them, which follows from
the totals alone.  The block of an outcome follows from the content of its file, so the shape in
which hits are held leaves no trace in a report.
-/

namespace LuaCoverage

/-- Outcomes that differ at most in the shape of their hits. -/
inductive Outcome.Alike : Outcome → Outcome → Prop
  /-- Both are analyzed, with the same source. -/
  | analyzed {file other : FileHits} (same : file.content = other.content) (source : List String)
      (statements : StatementLines) :
      Alike (.analyzed { file, source, statements })
        (.analyzed { file := other, source, statements })
  /-- Both failed, for the same reason. -/
  | failed {file other : FileHits} (same : file.content = other.content) (reason : String) :
      Alike (.failed file reason) (.failed other reason)

theorem Outcome.ofFile_alike (system : FileSystem) (grammar : Grammar) {file other : FileHits}
    (same : file.content = other.content) :
    Alike (ofFile system grammar file) (ofFile system grammar other) := by
  rw [ofFile, ofFile, AnalyzedFile.load, AnalyzedFile.load, FileHits.path_of_content same]
  cases system.read other.path with
  | error error => exact .failed same _
  | ok octets =>
      cases parsed : grammar other.path (Utf8.decode octets) with
      | error error =>
          simp only [Except.mapError, bind, Except.bind, parsed]
          exact .failed same _
      | ok statements =>
          simp only [Except.mapError, bind, Except.bind, parsed, pure, Except.pure]
          exact .analyzed same _ _

section Same

variable {file other : FileHits} (same : file.content = other.content)
include same

theorem LineCounts.json_of_content : LineCounts.json file.lines = LineCounts.json other.lines := by
  rw [LineCounts.json, LineCounts.json,
    Std.TreeMap.equiv_iff_toList_eq.mp (FileHits.equiv_of_content same)]

namespace AnalyzedFile

variable (source : List String) (statements : StatementLines)

theorem rowsFrom_of_content (line : Nat) (texts : List String) :
    rowsFrom { file, source, statements } line texts =
      rowsFrom { file := other, source, statements } line texts := by
  induction texts generalizing line with
  | nil => rfl
  | cons text texts ih =>
      simp only [rowsFrom, columnWidth, countText, FileHits.greatestCount_of_content same,
        (FileHits.equiv_of_content same).getElem?_eq]
      rw [ih]

theorem figures_of_content :
    figures { file, source, statements } = figures { file := other, source, statements } :=
  FileHits.figures_of_content same statements

theorem listing_of_content :
    listing { file, source, statements } = listing { file := other, source, statements } := by
  rw [listing, listing, rows, rows, rowsFrom_of_content same]

theorem summary_of_content :
    summary { file, source, statements } = summary { file := other, source, statements } := by
  rw [summary, summary, figures_of_content same]
  exact congrArg (Figures.summary · _) (FileHits.path_of_content same)

end AnalyzedFile
end Same

namespace Outcome.Alike

variable {outcome other : Outcome} (alike : outcome.Alike other)
include alike

theorem text_eq (options : TextOptions) : outcome.text options = other.text options := by
  unfold text
  cases alike with
  | analyzed same source statements =>
      simp only [file, FileHits.path_of_content same,
        AnalyzedFile.listing_of_content same, AnalyzedFile.summary_of_content same]
  | failed same reason => simp only [file, FileHits.path_of_content same]

theorem json_eq : outcome.json = other.json := by
  cases alike with
  | analyzed same source statements =>
      simp only [json, file, FileHits.name_of_content same, FileHits.path_of_content same,
        LineCounts.json_of_content same, FileHits.figures_of_content same]
  | failed same reason =>
      simp only [json, file, FileHits.name_of_content same, FileHits.path_of_content same,
        LineCounts.json_of_content same]

theorem traceBlock_eq : outcome.traceBlock = other.traceBlock := by
  cases alike with
  | analyzed same source statements =>
      simp only [traceBlock, file, FileHits.path_of_content same,
        (FileHits.equiv_of_content same).getD_eq]
  | failed same reason =>
      simp only [traceBlock, file, FileHits.path_of_content same,
        Std.TreeMap.equiv_iff_toList_eq.mp (FileHits.equiv_of_content same)]

end Outcome.Alike

namespace Json

/-- Brackets with items between them, each on a line of its own that is one level deeper. -/
def bracketed (opening closing : String) (level : Nat) : List String → String
  | [] => opening ++ closing
  | first :: rest =>
      opening ++ newline (level + 1) ++
        String.intercalate ("," ++ newline (level + 1)) (first :: rest) ++ newline level ++ closing

/-- Printed items as an array that starts at some level. -/
def arrayText (level : Nat) (items : List String) : String := bracketed "[" "]" level items

/-- Printed values as an object that starts at some level. -/
def objectText (level : Nat) (members : List (String × String)) : String :=
  bracketed "\x7b" "\x7d" level (members.map fun (key, value) => quoted key ++ ": " ++ value)

theorem append_printItems (level : Nat) (first : String) (items : List Json) :
    first ++ printItems level (.ofList items) =
      String.intercalate ("," ++ newline level) (first :: items.map (print level)) := by
  induction items generalizing first with
  | nil => simp [JsonItems.ofList, printItems]
  | cons item items ih =>
      rw [List.map_cons, String.intercalate_cons_cons, ← ih, JsonItems.ofList, printItems]
      simp only [String.append_assoc]

theorem append_printMembers (level : Nat) (first : String) (members : List (String × Json)) :
    first ++ printMembers level (.ofList members) =
      String.intercalate ("," ++ newline level)
        (first :: members.map fun (key, value) => quoted key ++ ": " ++ value.print level) := by
  induction members generalizing first with
  | nil => simp [JsonMembers.ofList, printMembers]
  | cons member members ih =>
      rw [List.map_cons, String.intercalate_cons_cons, ← ih, JsonMembers.ofList, printMembers]
      simp only [String.append_assoc]

theorem print_array (level : Nat) (items : List Json) :
    (Json.array (.ofList items)).print level =
      arrayText level (items.map (print (level + 1))) := by
  cases items with
  | nil => rfl
  | cons first rest =>
      rw [JsonItems.ofList, print, arrayText, List.map_cons, bracketed, ← append_printItems]
      simp only [String.append_assoc]

theorem print_object (level : Nat) (members : List (String × Json)) :
    (Json.object (.ofList members)).print level =
      objectText level (members.map fun (key, value) => (key, value.print (level + 1))) := by
  cases members with
  | nil => rfl
  | cons first rest =>
      rw [JsonMembers.ofList, print, objectText, List.map_map, List.map_cons, bracketed]
      simp only [Function.comp_def]
      rw [← append_printMembers]
      simp only [String.append_assoc]

end Json

namespace Report

/-- The text of every outcome. -/
def textBlocks (options : TextOptions) (report : Report) : List String :=
  report.outcomes.map (Outcome.text options)

/-- The printed object of every outcome, two levels deep. -/
def jsonBlocks (report : Report) : List String :=
  report.outcomes.map fun outcome => outcome.json.print 2

/-- The part of a tracefile for every outcome. -/
def tracefileBlocks (report : Report) : List String :=
  report.outcomes.map fun outcome => Lines.toText outcome.traceBlock.rows

/-- The JSON form of a report with the given totals and printed objects. -/
def jsonOf (points files : Nat) (blocks : List String) : String :=
  Json.objectText 0
    [("total_points", points.repr), ("total_files", files.repr),
      ("files", Json.arrayText 1 blocks)] ++ "\n"

variable (report : Report)

theorem text_eq_blocks (options : TextOptions) :
    report.text options = report.header ++ String.join (report.textBlocks options) := rfl

theorem json_eq_blocks :
    report.json = jsonOf report.totalPoints report.totalFiles report.jsonBlocks := by
  have blocks : report.jsonBlocks = (report.outcomes.map Outcome.json).map (Json.print 2) := by
    rw [jsonBlocks, List.map_map, Function.comp_def]
  rw [json, document, Json.print_object, jsonOf, blocks, ← Json.print_array]
  simp only [List.map_cons, List.map_nil, Json.print]

theorem tracefile_eq_blocks : report.tracefile = String.join report.tracefileBlocks := by
  rw [tracefile, traceBlocks, tracefileBlocks]
  induction report.outcomes with
  | nil => rfl
  | cons outcome outcomes ih =>
      rw [List.map_cons, List.flatMap_cons, List.map_cons, String.join_cons, ← ih]
      simp only [Lines.toText, List.map_append, String.join_append]

end Report
end LuaCoverage
