import LuaCoverage.Report.Basic
import LuaCoverage.Text.Decimal

/-!
# Reports as text

The listing of a file shows every source line behind its count, all counts of the file in one
column.  A line without a count shows blanks; a line named with no hits shows a zero.
-/

namespace LuaCoverage

/-- Which parts of a file are shown. -/
structure TextOptions where
  /-- The listing. -/
  code : Bool := true
  /-- The summary. -/
  total : Bool := true
  /-- Reserved for functions; without effect. -/
  functions : Bool := true
  deriving DecidableEq

/-- A text filled up with blanks on the right. -/
def padRight (width : Nat) (text : String) : String :=
  text.pushn ' ' (width - text.length)

/-- The summary line of a file. -/
def Figures.summary (path : Path) (figures : Figures) : String :=
  path.text ++ " total coverage " ++ figures.percentage.toNat.repr ++ "% " ++
    figures.covered.toNat.repr ++ "/" ++ figures.executable.toNat.repr ++
    if figures.anyExecutable then "\n" else " (no executable lines)\n"

namespace AnalyzedFile

/-- Width of the column of counts. -/
def columnWidth (analyzed : AnalyzedFile) : Nat :=
  Decimal.width analyzed.file.greatestCount.toNat

/-- The text in the column of counts for a line. -/
def countText (analyzed : AnalyzedFile) (line : Nat) : String :=
  match analyzed.file.lines[line]? with
  | some count => count.toNat.repr
  | none => ""

/-- The rows of a listing, for source lines from a given number on. -/
def rowsFrom (analyzed : AnalyzedFile) (line : Nat) : List String → List String
  | [] => []
  | text :: texts =>
      (padRight analyzed.columnWidth (analyzed.countText line) ++ " " ++ text) ::
        analyzed.rowsFrom (line + 1) texts

/-- The rows of the listing. -/
def rows (analyzed : AnalyzedFile) : List String := analyzed.rowsFrom 1 analyzed.source

/-- Every source line behind its count. -/
def listing (analyzed : AnalyzedFile) : String := Lines.toText analyzed.rows

/-- The summary line. -/
def summary (analyzed : AnalyzedFile) : String := analyzed.figures.summary analyzed.file.path

end AnalyzedFile

/-- The text for one file. -/
def Outcome.text (options : TextOptions) (outcome : Outcome) : String :=
  "coverage of " ++ outcome.file.path.text ++ ":\n" ++
    match outcome with
    | .failed _ reason => reason ++ "\n"
    | .analyzed file =>
        (if options.code then file.listing else "") ++
          if options.total then file.summary else ""

/-- The first line of a report. -/
def Report.header (report : Report) : String :=
  "total points = " ++ report.totalPoints.repr ++ ", files = " ++ report.totalFiles.repr ++ "\n"

/-- A report as text. -/
def Report.text (options : TextOptions) (report : Report) : String :=
  report.header ++ String.join (report.outcomes.map (Outcome.text options))

end LuaCoverage
