import LuaCoverage.Coverage.FileHits
import Std.Data.TreeSet

/-!
# Figures of a file

A statement line is covered when it has a count, whatever that count is.  The percentage is rounded
down and is zero where nothing can be covered.
-/

namespace LuaCoverage

/-- The lines on which statements start. -/
abbrev StatementLines := Std.TreeSet UInt32

/-- The numbers of the lines on which statements start, in ascending order. -/
def StatementLines.numbers (statements : StatementLines) : List Nat :=
  statements.toList.map UInt32.toNat

/-- How many statement lines a file has and how many of them are covered. -/
structure Figures where
  /-- Statement lines with a count. -/
  covered : UInt64
  /-- All statement lines. -/
  executable : UInt64
  deriving DecidableEq

namespace Figures

/-- The whole percentage of a part.  What the product has beyond 64 bits is lost, and so is what the
quotient has beyond 32 bits. -/
def percentageOf (part whole : UInt64) : UInt32 :=
  if whole = 0 then 0 else (part * 100 / whole).toUInt32

/-- Figures of a file with the given statement lines. -/
def ofFile (file : FileHits) (statements : StatementLines) : Figures where
  covered := .ofNat (statements.numbers.filter file.lines.contains).length
  executable := .ofNat statements.size

/-- The whole percentage of covered lines. -/
def percentage (figures : Figures) : UInt32 :=
  percentageOf figures.covered figures.executable

/-- Whether there is anything to cover. -/
def anyExecutable (figures : Figures) : Bool :=
  0 < figures.executable

end Figures
end LuaCoverage
