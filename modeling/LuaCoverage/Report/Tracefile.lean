import LuaCoverage.Report.Basic

/-!
# Tracefiles

A tracefile in LCOV format has one block for every file: its path, the count of every line, the
number of lines and the number of lines with a positive count.  An analyzed file has its statement
lines, with zero for those without a count; a failed file has all lines with a count.
-/

namespace LuaCoverage

/-- One file of a tracefile. -/
structure TraceBlock where
  /-- The path as text. -/
  path : String
  /-- Counts in ascending order of lines. -/
  lines : List (Nat × UInt64)
  deriving DecidableEq

namespace TraceBlock

/-- Lines with a positive count. -/
def hit (block : TraceBlock) : Nat :=
  (block.lines.filter fun entry => 0 < entry.2).length

/-- The lines of text of a block. -/
def rows (block : TraceBlock) : List String :=
  ("SF:" ++ block.path) ::
    block.lines.map (fun (line, count) => "DA:" ++ line.repr ++ "," ++ count.toNat.repr) ++
    ["LF:" ++ block.lines.length.repr, "LH:" ++ block.hit.repr, "end_of_record"]

end TraceBlock

/-- The block of a file. -/
def Outcome.traceBlock (outcome : Outcome) : TraceBlock where
  path := outcome.file.path.text
  lines :=
    match outcome with
    | .analyzed file =>
        file.statements.numbers.map fun line => (line, file.file.lines.getD line 0)
    | .failed file _ => file.lines.toList

/-- The blocks of a report. -/
def Report.traceBlocks (report : Report) : List TraceBlock :=
  report.outcomes.map Outcome.traceBlock

/-- A report as tracefile. -/
def Report.tracefile (report : Report) : String :=
  Lines.toText (report.traceBlocks.flatMap TraceBlock.rows)

end LuaCoverage
