import LuaCoverage.Path

/-!
# Events

What happens on the way from a profile to a report and does not show in the result.  Every operation
hands over its events in the order in which they happen.
-/

namespace LuaCoverage

/-- How much attention an event deserves. -/
inductive Event.Level
  /-- A detail of normal work. -/
  | debug
  /-- Something that the reader of a report should know. -/
  | warning
  deriving DecidableEq

/-- Something worth logging. -/
inductive Event
  /-- The profile ends inside a record, of which so many octets are there. -/
  | truncated (size : Nat)
  /-- A tag names no source line. -/
  | tagPassed (tag : String)
  /-- A new spelling of a source leads to a file that another spelling has led to before. -/
  | merged (source : String) (path : Path)
  /-- A profile has been read to its end. -/
  | decoded (records skipped trailing : Nat)
  /-- A file cannot be analyzed. -/
  | fileSkipped (path : Path) (reason : String)
  deriving DecidableEq

namespace Event

/-- The level of an event. -/
def level : Event → Level
  | fileSkipped .. => .warning
  | _ => .debug

/-- The fixed text of an event. -/
def message : Event → String
  | truncated .. => "dropping truncated trailing record"
  | tagPassed .. => "skipping tag without a single source:line separator"
  | merged .. => "merging into existing file"
  | decoded .. => "decoded profile"
  | fileSkipped .. => "skipping file"

/-- The named details of an event. -/
def fields : Event → List (String × String)
  | truncated size => [("bytes", size.repr)]
  | tagPassed tag => [("tag", tag)]
  | merged source path => [("source", source), ("path", path.text)]
  | decoded records skipped trailing =>
      [("records", records.repr), ("skipped", skipped.repr), ("trailing_bytes", trailing.repr)]
  | fileSkipped path reason => [("path", path.text), ("error", reason)]

end Event
end LuaCoverage
