import LuaCoverage.Coverage.Tally

/-!
# Coverage of a profile

The hits of all files of a profile, in the order in which the files are first met, and the number of
records behind them.
-/

namespace LuaCoverage

/-- Hits of the files of a profile. -/
structure Coverage where
  /-- Files in the order of their first record. -/
  files : List FileHits := []
  /-- Number of records that name a source line. -/
  points : Nat := 0

/-- The coverage gathered in a tally. -/
def Tally.coverage (tally : Tally) : Coverage where
  files := tally.files.toList
  points := tally.points

namespace Coverage

/-- Load a profile: its coverage or the first failure, and what happened on the way. -/
def ofProfile (system : FileSystem) (root : Path) (octets : List UInt8) :
    Except Error Coverage × List Event :=
  let gathering := ({ root } : Tally).gather system (.new octets)
  match gathering.failure with
  | some error => (.error error, gathering.events)
  | none =>
      let statistics := gathering.decoder.statistics
      (.ok gathering.tally.coverage,
        gathering.events ++
          [.decoded statistics.records statistics.skipped statistics.trailing])

/-- The files with a given display name, or all of them. -/
def filesNamed (coverage : Coverage) (filter : Option String) : List FileHits :=
  match filter with
  | none => coverage.files
  | some name => coverage.files.filter (·.name == name)

end Coverage
end LuaCoverage
