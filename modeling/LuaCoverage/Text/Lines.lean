/-!
# Lines of a text

A line ends at a line feed, and a carriage return right before that line feed belongs to the ending.
A last line without an ending is kept as it stands; an ending at the very end adds no empty line.
-/

namespace LuaCoverage
namespace Lines

/-- The lines of a list of characters. -/
def split : List Char → List (List Char)
  | [] => []
  | '\r' :: '\n' :: rest => [] :: split rest
  | '\n' :: rest => [] :: split rest
  | character :: rest =>
      match split rest with
      | [] => [[character]]
      | line :: lines => (character :: line) :: lines

/-- The lines of a text, without their endings. -/
def ofText (text : String) : List String :=
  (split text.toList).map String.ofList

/-- The text of some lines, each ended by a line feed. -/
def toText (lines : List String) : String :=
  String.join (lines.map (· ++ "\n"))

end Lines
end LuaCoverage
