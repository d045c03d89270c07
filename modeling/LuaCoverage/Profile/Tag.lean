import LuaCoverage.Text.Decimal

/-!
# Tags

A tag names a source line as `source:line`.  Leading at signs mark a chunk and are dropped.  A tag
without exactly one colon names no source line and is passed over; a tag with one colon whose second
part is no line number is an error.
-/

namespace LuaCoverage
namespace Tag

/-- The largest line number that a tag can name. -/
def maxLine : Nat := 4294967295

/-- What a tag says. -/
inductive Reading
  /-- The tag names no source line. -/
  | passed
  /-- The tag names a line of a source. -/
  | located (source : String) (line : Nat)
  /-- The line segment is no line number; the tag is given without its leading at signs. -/
  | badLine (tag : String)
  deriving DecidableEq

/-- A tag without its leading at signs. -/
def strip (tag : List Char) : List Char := tag.dropWhile (· == '@')

/-- A line number: an optional plus sign and ASCII digits, up to the largest line. -/
def readLine? (text : List Char) : Option Nat :=
  (Decimal.read? text).filter (· ≤ maxLine)

/-- Read a tag. -/
def read (tag : String) : Reading :=
  let body := strip tag.toList
  if body.count ':' ≠ 1 then .passed
  else
    match readLine? ((body.dropWhile (· != ':')).drop 1) with
    | some line => .located (String.ofList (body.takeWhile (· != ':'))) line
    | none => .badLine (String.ofList body)

/-- The tag of a source line. -/
def render (source : String) (line : Nat) : String :=
  source ++ ":" ++ line.repr

end Tag
end LuaCoverage
