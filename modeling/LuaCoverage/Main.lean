import LuaCoverage.Command.Line
import LuaCoverage.Lua.Native

/-!
# The program

The only part that touches the outside.  It asks the file system all questions that a request will
ask, hands the answers over, writes the tracefile and prints what comes back.
-/

namespace LuaCoverage
namespace Program

/-- The text of the help. -/
def helpText : String :=
  "Line coverage for Lua sources from a binary execution-count profile\n\n" ++
  "Options:\n" ++
  "  -i, --input <FILE>         Profile to read\n" ++
  "      --path <DIRECTORY>     Root of the sources [default: ./]\n" ++
  "  -f, --filter <NAME>        Only report on files with this name, without extension\n" ++
  "      --showcode[=<BOOL>]    Print listings [default: true]\n" ++
  "      --showtotal[=<BOOL>]   Print summaries [default: true]\n" ++
  "      --showfunc[=<BOOL>]    Reserved\n" ++
  "      --format <STYLE>       Print as text or json [default: text]\n" ++
  "      --lcov <FILE>          Also write a tracefile\n" ++
  "      --verbose              Log details\n" ++
  "  -h, --help                 Print help\n" ++
  "  -V, --version              Print version\n"

/-- A refusal by its number, which some layers of the system report negated, and description. -/
def refusal (code : UInt32) (description : String) : IoError :=
  match min code (-code) with
  | 2 => .notFound
  | 20 => .notDirectory
  | 21 => .isDirectory
  | 36 => .nameTooLong
  | 40 => .linkLoop
  | number => .other (description ++ " (os error " ++ number.toNat.repr ++ ")")

/-- The refusal behind an exception. -/
def refusalOf (problem : IO.Error) : IoError :=
  match problem with
  | .noFileOrDirectory _ code description | .interrupted _ code description
  | .alreadyExists _ code description | .invalidArgument _ code description
  | .permissionDenied _ code description | .resourceExhausted _ code description
  | .inappropriateType _ code description | .noSuchThing _ code description
  | .otherError code description | .resourceBusy code description
  | .resourceVanished code description | .unsupportedOperation code description
  | .hardwareFault code description | .unsatisfiedConstraints code description
  | .illegalOperation code description | .protocolError code description
  | .timeExpired code description => refusal code description
  | .unexpectedEof => .other "unexpected end of file"
  | .userError description => .other description

/-- Run an action on a path, with refusals as values. -/
def attempt {α : Type} (path : Path) (action : String → IO α) : IO (Except IoError α) := do
  if path.octets.contains 0 then return .error .nulInPath
  else
    try return .ok (← action path.text)
    catch problem => return .error (refusalOf problem)

/-- Everything that was asked about one path. -/
structure Observation where
  /-- Where the path leads. -/
  realpath : Except IoError Path := .error .notFound
  /-- Whether it leads to a regular file. -/
  isFile : Except IoError Bool := .error .notFound
  /-- The content found there. -/
  content : Except IoError (List UInt8) := .error .notFound

/-- Ask about one path.  Opening it brings out why it leads nowhere, if it does. -/
def observe (path : Path) : IO Observation := do
  let content ← attempt path fun name => do
    return (← IO.FS.readBinFile name).data.toList
  let realpath ← attempt path fun name => do
    let _ ← IO.FS.Handle.mk name .read
    return Path.ofText (← IO.FS.realPath name).toString
  let isFile ← attempt path fun name => do
    return (← (← IO.FS.realPath name).metadata).type == .file
  return { realpath, isFile, content }

/-- The sources named by a profile before its first bad line number. -/
def sources (decoder : Decoder) : List String :=
  match _handed : decoder.next with
  | { item := .record record, decoder := after, .. } => record.source :: sources after
  | _ => []
termination_by decoder.remaining
decreasing_by exact Decoder.remaining_lt_of_next _handed

/-- The answers to all questions that a request will ask. -/
def answers (request : Request) : IO FileSystem := do
  let input ← observe request.input
  let mut known : Std.HashMap Path Observation := {}
  for source in (sources (.new (input.content.toOption.getD []))).eraseDups do
    let joined := FileSystem.lookupPath request.root source
    let found ← observe joined
    known := known.insert joined found
    match found.realpath with
    | .ok path => known := known.insert path { found with realpath := .ok path }
    | .error _ => pure ()
  known := known.insertIfNew request.input input
  let table := known
  return {
    realpath := fun path => (table.getD path {}).realpath
    isFile := fun path => (table.getD path {}).isFile
    read := fun path => (table.getD path {}).content }

/-- Log events to standard error. -/
def log (verbose : Bool) (events : List Event) : IO Unit := do
  for event in events do
    if verbose || event.level = .warning then
      let fields := event.fields.map fun (name, value) => " " ++ name ++ "=" ++ value
      let level := match event.level with
        | .debug => "DEBUG "
        | .warning => "WARN "
      IO.eprintln (level ++ event.message ++ String.join fields)

/-- Write a file. -/
def overwrite (target : Path) (content : List UInt8) : IO (Except IoError Unit) :=
  attempt target fun name => IO.FS.writeBinFile name ⟨content.toArray⟩

/-- Fulfil a request. -/
def fulfil (verbose : Bool) (request : Request) : IO Exit := do
  let (plan, events) := request.plan .native (← answers request)
  log verbose events
  return .ofAnswer (← plan.carryOut overwrite)

/-- Do what the arguments ask for. -/
def run (arguments : List String) : IO Exit :=
  match Invocation.ofArguments (arguments.map Utf8.encode) with
  | .help => return .help
  | .version => return .version
  | .misuse => return .misuse
  | .report settings =>
      match settings.request? with
      | none => return .help
      | some request => fulfil settings.verbose.isSome request

end Program
end LuaCoverage

/-- Run the program. -/
def main (arguments : List String) : IO UInt32 := do
  let exit ← LuaCoverage.Program.run arguments
  IO.print (exit.output LuaCoverage.Program.helpText)
  match exit with
  | .misuse => IO.eprintln "error: unexpected arguments, try '--help'"
  | _ => IO.eprint (exit.story?.getD "")
  return UInt32.ofNat exit.status
