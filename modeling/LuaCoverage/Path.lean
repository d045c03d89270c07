import LuaCoverage.Text.Utf8

/-!
# Paths

A path is a sequence of octets, as file systems keep it.  It is shown as text with ill-formed parts
replaced.  The stem of a path is its last name without the extension, by which files are displayed
and selected.
-/

namespace LuaCoverage

/-- A name between two separators. -/
abbrev Name := List UInt8

/-- A path as spelled. -/
structure Path where
  /-- The spelling. -/
  octets : List UInt8
  deriving DecidableEq, Hashable

namespace Path

/-- The slash. -/
def separator : UInt8 := 0x2F

/-- The full stop. -/
def dot : UInt8 := 0x2E

/-- The path that a text spells. -/
def ofText (text : String) : Path := ⟨Utf8.encode text⟩

/-- The path as text. -/
def text (path : Path) : String := Utf8.decode path.octets

/-- Whether a path starts at the root. -/
def isAbsolute (path : Path) : Bool := path.octets.head? == some separator

/-- The names between separators, empty ones included: one more than there are separators. -/
def split : List UInt8 → List Name
  | [] => [[]]
  | octet :: octets =>
      if octet = separator then [] :: split octets
      else
        match split octets with
        | [] => [[octet]]
        | name :: names => (octet :: name) :: names

/-- The pieces of a path between its separators. -/
def pieces (path : Path) : List Name := split path.octets

/-- Put a relative path beneath a root.  No separator is added to a root that is empty or ends in
one. -/
def join (root beneath : Path) : Path :=
  if root.octets.isEmpty || root.octets.getLast? == some separator then
    ⟨root.octets ++ beneath.octets⟩
  else ⟨root.octets ++ separator :: beneath.octets⟩

/-- The name that stands for the same directory. -/
def sameDirectory : Name := [dot]

/-- The name that stands for the directory above. -/
def directoryAbove : Name := [dot, dot]

/-- The last name of a path, empty pieces and single dots left aside; two dots are no name. -/
def fileName? (path : Path) : Option Name :=
  match (path.pieces.filter fun name => name ≠ [] && name ≠ sameDirectory).getLast? with
  | none => none
  | some name => if name = directoryAbove then none else some name

/-- The octets before the last occurrence of a mark. -/
def beforeLast? (mark : UInt8) : List UInt8 → Option (List UInt8)
  | [] => none
  | octet :: octets =>
      match beforeLast? mark octets with
      | some front => some (octet :: front)
      | none => if octet = mark then some [] else none

/-- A name without its extension.  A dot at the very start begins no extension. -/
def dropExtension (name : Name) : Name :=
  match beforeLast? dot name with
  | some (octet :: octets) => octet :: octets
  | _ => name

/-- The last name without its extension, or nothing. -/
def stem (path : Path) : String :=
  match path.fileName? with
  | some name => Utf8.decode (dropExtension name)
  | none => ""

end Path
end LuaCoverage
