import LuaCoverage.Command.Options

/-!
# The command line

Arguments without a profile call for help.  A misuse ends with status 2, a failed request with
status 1 and its story, everything else with status 0.
-/

namespace LuaCoverage

/-- How the program ends. -/
inductive Exit
  /-- It shows its help. -/
  | help
  /-- It shows its version. -/
  | version
  /-- It does not understand its arguments. -/
  | misuse
  /-- It cannot fulfil the request. -/
  | failed (failure : Failure)
  /-- It prints a report. -/
  | printed (output : String)
  deriving DecidableEq

namespace Exit

/-- The exit status. -/
def status : Exit → Nat
  | misuse => 2
  | failed _ => 1
  | _ => 0

/-- The line that shows the version. -/
def versionLine : String := "covlua 0.1.0\n"

/-- What goes to standard output, given the text of the help. -/
def output (helpText : String) : Exit → String
  | help => helpText
  | version => versionLine
  | printed output => output
  | misuse | failed _ => ""

/-- The story of a failed request. -/
def story? : Exit → Option String
  | failed failure => some failure.report
  | _ => none

/-- How a request ends. -/
def ofAnswer : Except Failure String → Exit
  | .ok output => printed output
  | .error failure => failed failure

end Exit

/-- Run the command line on a disk. -/
def commandLine (toolkit : Lua.Toolkit) (disk : Disk) (arguments : List Argument) : Exit × Disk :=
  match Invocation.ofArguments arguments with
  | .help => (.help, disk)
  | .version => (.version, disk)
  | .misuse => (.misuse, disk)
  | .report settings =>
      match settings.request? with
      | none => (.help, disk)
      | some request =>
          let (response, after) := request.run toolkit disk
          (.ofAnswer response.answer, after)

end LuaCoverage
