import LuaCoverage.Command.Arguments
import LuaCoverage.Command.Request

/-!
# Options

Arguments are read from left to right.  An option that takes a value takes it from after an equals
sign or from the next argument; what starts with a dash is no value, a dash alone excepted.  The
first thing that settles the matter counts: a call for help, for the version, or a misuse.
-/

namespace LuaCoverage

/-- An option that changes how a report is made. -/
inductive Flag
  /-- The profile. -/
  | input
  /-- The root of the sources. -/
  | path
  /-- The display name of the files to report on. -/
  | filter
  /-- Whether listings are shown. -/
  | showcode
  /-- Whether summaries are shown. -/
  | showtotal
  /-- Reserved. -/
  | showfunc
  /-- How the report is printed. -/
  | format
  /-- Where a tracefile goes. -/
  | lcov
  /-- Whether events are logged in detail. -/
  | verbose
  deriving DecidableEq

/-- Options as given so far. -/
structure Settings where
  /-- The profile. -/
  input : Option Path := none
  /-- The root of the sources. -/
  path : Option Path := none
  /-- The display name of the files to report on. -/
  filter : Option String := none
  /-- Whether listings are shown. -/
  showcode : Option Bool := none
  /-- Whether summaries are shown. -/
  showtotal : Option Bool := none
  /-- Reserved. -/
  showfunc : Option Bool := none
  /-- How the report is printed. -/
  format : Option Layout := none
  /-- Where a tracefile goes. -/
  lcov : Option Path := none
  /-- Whether events are logged in detail. -/
  verbose : Option Unit := none

/-- What an argument says. -/
inductive Argument.Reading
  /-- A call for help. -/
  | help
  /-- A call for the version. -/
  | version
  /-- An option, perhaps with its value. -/
  | flag (flag : Flag) (value : Option Argument)
  /-- Two dashes alone. -/
  | terminator
  /-- Anything else. -/
  | unknown

/-- What the arguments ask for. -/
inductive Invocation
  /-- Help. -/
  | help
  /-- The version. -/
  | version
  /-- A report. -/
  | report (settings : Settings)
  /-- Nothing that makes sense. -/
  | misuse

namespace Flag

/-- The option with a long name. -/
def ofLongName? : String → Option Flag
  | "input" => some input
  | "path" => some path
  | "filter" => some filter
  | "showcode" => some showcode
  | "showtotal" => some showtotal
  | "showfunc" => some showfunc
  | "format" => some format
  | "lcov" => some lcov
  | "verbose" => some verbose
  | _ => none

end Flag

namespace Argument

/-- What two dashes and more say. -/
def readLong (body : List UInt8) : Reading :=
  let name := body.takeWhile (· != equalsSign)
  let value := (body.drop name.length).tail?
  match Utf8.decode? name with
  | some "help" => if value.isNone then .help else .unknown
  | some "version" => if value.isNone then .version else .unknown
  | some text =>
      match Flag.ofLongName? text with
      | some flag => .flag flag value
      | none => .unknown
  | none => .unknown

/-- The value written right behind a short option. -/
def attached? : List UInt8 → Option Argument
  | [] => none
  | octet :: octets => some (if octet = equalsSign then octets else octet :: octets)

/-- What one dash and more say. -/
def readShort : List UInt8 → Reading
  | [] => .unknown
  | letter :: rest =>
      if letter = 'h'.toUInt8 then .help
      else if letter = 'V'.toUInt8 then .version
      else if letter = 'i'.toUInt8 then .flag .input (attached? rest)
      else if letter = 'f'.toUInt8 then .flag .filter (attached? rest)
      else .unknown

/-- What an argument says. -/
def read (argument : Argument) : Reading :=
  match argument with
  | [] => .unknown
  | first :: rest =>
      if first ≠ dash then .unknown
      else if rest = [dash] then .terminator
      else if rest.head? = some dash then readLong rest.tail
      else readShort rest

/-- Whether an argument can be the value of the option before it. -/
def isValue (argument : Argument) : Bool :=
  argument.head? != some dash || argument == [dash]

end Argument

namespace Settings

/-- Fill a place that is still empty. -/
def fill {α : Type} (old : Option α) (new : Option α) : Option (Option α) :=
  match old, new with
  | none, some value => some (some value)
  | _, _ => none

/-- A path, which is not empty. -/
def readPath? (value : Option Argument) : Option Path :=
  (value.filter (!·.isEmpty)).map Path.mk

/-- A truth value, which may be left out. -/
def readBool? (value : Option Argument) : Option Bool :=
  match value with
  | none => some true
  | some octets =>
      match Utf8.decode? octets with
      | some "true" => some true
      | some "false" => some false
      | _ => none

/-- A layout. -/
def readLayout? (value : Option Argument) : Option Layout :=
  match value.bind Utf8.decode? with
  | some "text" => some .text
  | some "json" => some .json
  | _ => none

/-- Set an option, which may be done once and with a proper value. -/
def set (settings : Settings) (flag : Flag) (value : Option Argument) : Option Settings := do
  match flag with
  | .input => return { settings with input := ← fill settings.input (readPath? value) }
  | .path => return { settings with path := ← fill settings.path (readPath? value) }
  | .filter => return { settings with filter := ← fill settings.filter (value.bind Utf8.decode?) }
  | .showcode => return { settings with showcode := ← fill settings.showcode (readBool? value) }
  | .showtotal => return { settings with showtotal := ← fill settings.showtotal (readBool? value) }
  | .showfunc => return { settings with showfunc := ← fill settings.showfunc (readBool? value) }
  | .format => return { settings with format := ← fill settings.format (readLayout? value) }
  | .lcov => return { settings with lcov := ← fill settings.lcov (readPath? value) }
  | .verbose =>
      return { settings with
        verbose := ← fill settings.verbose (if value.isNone then some () else none) }

/-- Set an option that waits for a value in vain. -/
def settle (settings : Settings) (waiting : Option Flag) : Option Settings :=
  match waiting with
  | none => some settings
  | some flag => settings.set flag none

/-- The request for a report, if a profile is given. -/
def request? (settings : Settings) : Option Request :=
  settings.input.map fun input =>
    { input
      root := settings.path.getD (Path.ofText "./")
      filter := settings.filter
      options :=
        { code := settings.showcode.getD true
          total := settings.showtotal.getD true
          functions := settings.showfunc.getD true }
      layout := settings.format.getD .text
      tracefile := settings.lcov }

end Settings

namespace Invocation

/-- Read arguments after some options, the last of which may wait for its value. -/
def readFrom (settings : Settings) (waiting : Option Flag) : List Argument → Invocation
  | [] =>
      match settings.settle waiting with
      | some settled => .report settled
      | none => .misuse
  | argument :: others =>
      match waiting, argument.isValue with
      | some flag, true =>
          match settings.set flag (some argument) with
          | some changed => readFrom changed none others
          | none => .misuse
      | _, _ =>
          match settings.settle waiting with
          | none => .misuse
          | some settled =>
              match argument.read with
              | .help => .help
              | .version => .version
              | .terminator => if others.isEmpty then .report settled else .misuse
              | .unknown => .misuse
              | .flag flag none => readFrom settled (some flag) others
              | .flag flag (some value) =>
                  match settled.set flag (some value) with
                  | some changed => readFrom changed none others
                  | none => .misuse

/-- What arguments ask for. -/
def ofArguments (arguments : List Argument) : Invocation :=
  readFrom {} none (Argument.doubleDashes arguments)

end Invocation
end LuaCoverage
