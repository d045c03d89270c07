import LuaCoverage.FileSystem.Disk
import LuaCoverage.Lua.Grammar
import LuaCoverage.Report.Json
import LuaCoverage.Report.Text
import LuaCoverage.Report.Tracefile

/-!
# Requests for a report

A request loads a profile, reports on the selected files and may write a tracefile.  Everything is
read before anything is written: what is read makes up a plan, which says what to write and what to
print.  So the tracefile can replace a file that was read for it.
-/

namespace LuaCoverage

/-- How a report is printed. -/
inductive Layout
  /-- Listings and summaries. -/
  | text
  /-- A document for other programs. -/
  | json
  deriving DecidableEq

/-- Why a request comes to nothing. -/
inductive Failure
  /-- The profile cannot be read. -/
  | unreadableProfile (input : Path) (cause : IoError)
  /-- The profile cannot be loaded. -/
  | unloadableProfile (input : Path) (cause : Error)
  /-- The tracefile cannot be written. -/
  | unwritableTracefile (target : Path) (cause : IoError)
  deriving DecidableEq

namespace Failure

/-- What was not possible. -/
def message : Failure → String
  | unreadableProfile input _ => "Failed to read profile " ++ input.text
  | unloadableProfile input _ => "Failed to load profile " ++ input.text
  | unwritableTracefile target _ => "Failed to write LCOV to " ++ target.text

/-- The messages of the causes, down to the first. -/
def causes : Failure → List String
  | unreadableProfile _ cause => [cause.message]
  | unloadableProfile _ cause => cause.chain
  | unwritableTracefile _ cause => [cause.message]

/-- A text whose lines after the first are indented. -/
def hang (indent : String) (text : String) : String :=
  String.ofList (text.toList.flatMap fun character =>
    if character = '\n' then '\n' :: indent.toList else [character])

/-- Causes with their numbers. -/
def numbered (number : Nat) : List String → String
  | [] => ""
  | cause :: causes =>
      let label := number.repr ++ ": "
      "".pushn ' ' (7 - label.length) ++ label ++ hang "       " cause ++ "\n" ++
        numbered (number + 1) causes

/-- The whole story; a single cause has no number. -/
def report (failure : Failure) : String :=
  "Error: " ++ failure.message ++ "\n\nCaused by:\n" ++
    match failure.causes with
    | [cause] => "    " ++ hang "    " cause ++ "\n"
    | causes => numbered 0 causes

end Failure

/-- What is asked for. -/
structure Request where
  /-- The profile. -/
  input : Path
  /-- The root of the sources. -/
  root : Path
  /-- The display name of the files to report on, if not all. -/
  filter : Option String := none
  /-- Parts shown in text. -/
  options : TextOptions := {}
  /-- How the report is printed. -/
  layout : Layout := .text
  /-- Where a tracefile goes. -/
  tracefile : Option Path := none

/-- What came of a request. -/
structure Response where
  /-- The printed report. -/
  answer : Except Failure String
  /-- What happened on the way. -/
  events : List Event

/-- What is left to do when everything is read. -/
inductive Plan
  /-- Fail. -/
  | fail (failure : Failure)
  /-- Print a report. -/
  | print (output : String)
  /-- Write a tracefile, and then print a report. -/
  | write (target : Path) (content : List UInt8) (output : String)
  deriving DecidableEq

/-- Carry out a plan, given how a file is written. -/
def Plan.carryOut {m : Type → Type} [Monad m]
    (write : Path → List UInt8 → m (Except IoError Unit)) : Plan → m (Except Failure String)
  | fail failure => return .error failure
  | print output => return .ok output
  | .write target content output => do
      match ← write target content with
      | .error cause => return .error (.unwritableTracefile target cause)
      | .ok () => return .ok output

namespace Request

/-- The report that a request asks for. -/
def prepare (toolkit : Lua.Toolkit) (system : FileSystem) (request : Request) :
    Except Failure Report × List Event :=
  match system.read request.input with
  | .error cause => (.error (.unreadableProfile request.input cause), [])
  | .ok octets =>
      match Coverage.ofProfile system request.root octets with
      | (.error cause, events) => (.error (.unloadableProfile request.input cause), events)
      | (.ok coverage, events) =>
          let report := coverage.report system toolkit.grammar request.filter
          (.ok report, events ++ report.warnings)

/-- Print a report as asked for. -/
def print (request : Request) (report : Report) : String :=
  match request.layout with
  | .text => report.text request.options
  | .json => report.json

/-- What is to be done for a request, and what happened on the way. -/
def plan (toolkit : Lua.Toolkit) (system : FileSystem) (request : Request) : Plan × List Event :=
  match request.prepare toolkit system with
  | (.error failure, events) => (.fail failure, events)
  | (.ok report, events) =>
      match request.tracefile with
      | none => (.print (request.print report), events)
      | some target =>
          (.write target (Utf8.encode report.tracefile) (request.print report), events)

/-- Fulfil a request on a disk. -/
def run (toolkit : Lua.Toolkit) (disk : Disk) (request : Request) : Response × Disk :=
  let (plan, events) := request.plan toolkit disk.fileSystem
  let (answer, after) := (plan.carryOut Disk.overwrite).run disk
  ({ answer, events }, after)

end Request
end LuaCoverage
