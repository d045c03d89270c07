import LuaCoverage.Text.Utf8

/-!
# Spelling of arguments

Long options may be written with one dash or with two.  Before anything else is read from the
arguments, a single dash in front of a long option is doubled.  The first argument of two dashes
alone ends this, and arguments that are no well-formed text stay as they are.
-/

namespace LuaCoverage

/-- An argument as the system hands it over. -/
abbrev Argument := List UInt8

namespace Argument

/-- The dash. -/
def dash : UInt8 := 0x2D

/-- The equals sign. -/
def equalsSign : UInt8 := 0x3D

/-- Two dashes alone. -/
def terminator : Argument := [dash, dash]

/-- Options that may be written with one dash. -/
def longNames : List String :=
  ["input", "path", "filter", "showcode", "showtotal", "showfunc", "format", "lcov", "verbose"]

/-- Whether a text is a single dash and a long option, alone or with a value. -/
def isSingleDashed (text : List Char) : Bool :=
  match text with
  | '-' :: rest => longNames.contains (String.ofList (rest.takeWhile (· != '=')))
  | _ => false

/-- Double the dash of an argument that is a long option with a single one. -/
def doubleDash (argument : Argument) : Argument :=
  match Utf8.decode? argument with
  | none => argument
  | some text => if isSingleDashed text.toList then dash :: argument else argument

/-- Double the dashes of long options, up to the first argument of two dashes alone. -/
def doubleDashes : List Argument → List Argument
  | [] => []
  | argument :: others =>
      if argument = terminator then argument :: others
      else doubleDash argument :: doubleDashes others

end Argument
end LuaCoverage
