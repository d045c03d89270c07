import LuaCoverage.Coverage.FileHits
import LuaCoverage.FileSystem.Basic
import LuaCoverage.Profile.Decoder
import Std.Data.HashMap

/-!
# Tallies

A tally gathers the records of profiles by file.  One file is often named under several spellings;
every new spelling is looked up once, and the file it leads to is the key under which its hits are
gathered.  Files stand in the order in which they are first met.  A record whose source cannot be
found changes nothing.
-/

namespace LuaCoverage

/-- Hits gathered so far. -/
structure Tally where
  /-- Root beneath which sources are looked up. -/
  root : Path
  /-- Files in the order of their first record. -/
  files : Array FileHits := #[]
  /-- Where every file stands. -/
  indexOfPath : Std.HashMap Path Nat := ∅
  /-- Where the file stands that a known spelling leads to. -/
  indexOfSource : Std.HashMap String Nat := ∅
  /-- Number of records gathered. -/
  points : Nat := 0

namespace Tally

/-- Add a record to the file that stands somewhere. -/
def credit (tally : Tally) (index : Nat) (record : Record) : Tally :=
  { tally with
    files := tally.files.modify index (·.addHits record.line record.count)
    points := tally.points + 1 }

/-- Keep where a spelling leads. -/
def remember (tally : Tally) (source : String) (index : Nat) : Tally :=
  { tally with indexOfSource := tally.indexOfSource.insert source index }

/-- Add a file without hits after all others. -/
def append (tally : Tally) (path : Path) : Tally :=
  { tally with
    files := tally.files.push (FileHits.new path)
    indexOfPath := tally.indexOfPath.insert path tally.files.size }

/-- Where the file of a record stands, in the tally that knows it. -/
def locate (system : FileSystem) (tally : Tally) (record : Record) :
    Except Error (Nat × Tally × List Event) :=
  match tally.indexOfSource[record.source]? with
  | some index => .ok (index, tally, [])
  | none =>
      match system.findSource tally.root record.source
          (Tag.render record.source record.line) with
      | .error error => .error error
      | .ok path =>
          match tally.indexOfPath[path]? with
          | some index =>
              .ok (index, tally.remember record.source index, [.merged record.source path])
          | none =>
              let index := tally.files.size
              .ok (index, (tally.append path).remember record.source index, [])

/-- Add a record to its file. -/
def add (system : FileSystem) (tally : Tally) (record : Record) :
    Except Error (Tally × List Event) :=
  (tally.locate system record).map fun (index, located, events) =>
    (located.credit index record, events)

/-- What came of gathering the records of a decoder. -/
structure Gathering where
  /-- The tally with all records before the end or the failure. -/
  tally : Tally
  /-- The decoder, at the end or right after the record that failed. -/
  decoder : Decoder
  /-- What happened on the way. -/
  events : List Event
  /-- Why gathering stopped before the end. -/
  failure : Option Error

/-- Gather the records of a decoder after earlier events.  Each record is added on the file system
as it is by then. -/
def gatherAfter (systems : Nat → FileSystem) (earlier : Array Event) (tally : Tally)
    (decoder : Decoder) : Gathering :=
  match _handed : decoder.next with
  | { item := .finished, events, decoder := after } =>
      { tally, decoder := after, events := (earlier ++ events).toList, failure := none }
  | { item := .badLine tag, events, decoder := after } =>
      { tally
        decoder := after
        events := (earlier ++ events).toList
        failure := some (.badLine tag) }
  | { item := .record record, events, decoder := after } =>
      match tally.add (systems 0) record with
      | .error error =>
          { tally
            decoder := after
            events := (earlier ++ events).toList
            failure := some error }
      | .ok (grown, additions) =>
          gatherAfter (fun later => systems (later + 1)) (earlier ++ events ++ additions) grown
            after
termination_by decoder.remaining
decreasing_by exact Decoder.remaining_lt_of_next _handed

/-- Gather the records of a decoder, up to its end or the first failure, while the file system
changes. -/
def gatherAlong (systems : Nat → FileSystem) (tally : Tally) (decoder : Decoder) : Gathering :=
  gatherAfter systems #[] tally decoder

/-- Gather the records of a decoder, up to its end or the first failure, on a file system that stays
as it is. -/
def gather (system : FileSystem) (tally : Tally) (decoder : Decoder) : Gathering :=
  gatherAlong (fun _ => system) tally decoder

end Tally
end LuaCoverage
