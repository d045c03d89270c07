import LuaCoverage.Path
import Std.Data.TreeMap

/-!
# Hits of one file

The hits of a file are kept per line in ascending order of lines.  Hits of one line add up, and the
sum stops at the greatest count.
-/

namespace LuaCoverage

namespace Count

/-- The greatest count. -/
def greatest : UInt64 := 18446744073709551615

/-- The sum of two counts, or the greatest count if the sum is larger. -/
def add (left right : UInt64) : UInt64 :=
  if left.toNat + right.toNat ≤ greatest.toNat then left + right else greatest

theorem toNat_add (left right : UInt64) :
    (add left right).toNat = min 18446744073709551615 (left.toNat + right.toNat) := by
  have limit : greatest.toNat = 18446744073709551615 := rfl
  rw [add]
  split
  · next fits =>
      rw [UInt64.toNat_add, Nat.mod_eq_of_lt (by omega)]
      omega
  · omega

end Count

/-- Counts by line, in ascending order of lines. -/
abbrev LineCounts := Std.TreeMap Nat UInt64

/-- Hits of one source file. -/
structure FileHits where
  /-- Name of the file without its extension, for display and selection. -/
  name : String
  /-- The file itself. -/
  path : Path
  /-- Count of every line that was ever named, be it with no hits. -/
  lines : LineCounts := ∅

namespace FileHits

/-- A file without hits. -/
def new (path : Path) : FileHits where
  name := path.stem
  path := path

/-- Add hits to a line.  With no hits, the line is named all the same. -/
def addHits (file : FileHits) (line : Nat) (count : UInt64) : FileHits :=
  { file with lines := file.lines.insert line (Count.add (file.lines.getD line 0) count) }

/-- The largest count of a line, or zero without lines. -/
def greatestCount (file : FileHits) : UInt64 :=
  file.lines.values.foldl max 0

end FileHits
end LuaCoverage
