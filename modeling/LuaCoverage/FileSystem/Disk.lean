import LuaCoverage.FileSystem.Basic

/-!
# A disk of directories, files and symbolic links

A disk is a table of what stands where.  Paths are followed name by name: links are replaced by
their targets, two dots lead to the directory above, and everything that is passed through has to be
a directory.  Writing follows the same rules and creates a last name that does not exist.
-/

namespace LuaCoverage

/-- Names from the root down to a place. -/
abbrev Location := List Name

/-- What stands at a place. -/
inductive Node
  /-- A directory. -/
  | directory
  /-- A regular file. -/
  | file (content : List UInt8)
  /-- A symbolic link. -/
  | link (target : Path)
  deriving DecidableEq

/-- A disk and the directory where relative paths start. -/
structure Disk where
  /-- Where relative paths start. -/
  workingDirectory : Location
  /-- What stands where.  The root is a directory without an entry. -/
  entries : List (Location × Node)

namespace Disk

/-- The greatest number of links followed for one path. -/
def maxLinks : Nat := 40

/-- The greatest number of octets in a name. -/
def maxNameLength : Nat := 255

/-- The greatest number of octets in the spelling of a path that is opened. -/
def maxSpelling : Nat := 4095

/-- What stands at a place. -/
def node? (disk : Disk) (location : Location) : Option Node :=
  if location.isEmpty then some .directory else disk.entries.lookup location

/-- Put something at a place, instead of what stands there. -/
def put (disk : Disk) (location : Location) (node : Node) : Disk :=
  { disk with entries := (location, node) :: disk.entries.filter (·.1 != location) }

/-- The path of a place. -/
def pathOf : Location → Path
  | [] => ⟨[Path.separator]⟩
  | location => ⟨location.flatMap (Path.separator :: ·)⟩

/-- Where a path starts, seen from a directory. -/
def startOf (here : Location) (path : Path) : Location :=
  if path.isAbsolute then [] else here

/-- Why a name leads nowhere. -/
def missing (name : Name) : IoError :=
  if maxNameLength < name.length then .nameTooLong else .notFound

/-- Whether a name stays in the directory where it is read. -/
def stays (name : Name) : Bool := name.isEmpty || name == Path.sameDirectory

/-- Whether names can only follow a directory: they end without a name of their own, or they start
with a step to the directory above. -/
def askDirectory (names : List Name) : Bool :=
  match names.dropWhile stays with
  | [] => !names.isEmpty
  | name :: _ => name == Path.directoryAbove

/-- Whether the path of a place, with so many octets after it, goes past a limit. -/
def exceeds (limit : Option Nat) (location : Location) (size : Nat) : Bool :=
  limit.any (· < (pathOf location).octets.length + size)

/-- Why a name is not found at a place. -/
def absence (disk : Disk) (here : Location) (name : Name) : IoError :=
  match disk.node? here with
  | some (.file _) => .notDirectory
  | _ => missing name

/-- What is in the way of going on from a name that is no link, if anything. -/
def obstacle? (disk : Disk) (limit : Option Nat) (here : Location) (name : Name)
    (rest : List Name) : Option IoError :=
  if askDirectory rest && exceeds limit (here ++ [name]) 1 then some .nameTooLong
  else
    match disk.node? (here ++ [name]) with
    | none => some (disk.absence here name)
    | some (.file _) => if askDirectory rest then some .notDirectory else none
    | some _ => none

/-- Follow names from a place.  With a limit, every place on the way is looked at by its own path,
which must not be longer, nor may the separator that makes sure of a directory go past it. -/
def walk (disk : Disk) (limit : Option Nat) (links : Nat) (here : Location) (names : List Name) :
    Except IoError Location :=
  match names with
  | [] => .ok here
  | name :: rest =>
      if stays name then walk disk limit links here rest
      else if name == Path.directoryAbove then walk disk limit links here.dropLast rest
      else if exceeds limit (here ++ [name]) 0 then .error .nameTooLong
      else
        match disk.node? (here ++ [name]), links with
        | some (.link _), 0 => .error .linkLoop
        | some (.link target), links + 1 =>
            walk disk limit links (startOf here target) (target.pieces ++ rest)
        | _, links =>
            match disk.obstacle? limit here name rest with
            | some error => .error error
            | none => walk disk limit links (here ++ [name]) rest
termination_by (links, names.length)

/-- Refuse paths that no file system call takes. -/
def checked (path : Path) : Except IoError Path :=
  if path.octets.contains 0 then .error .nulInPath
  else if path.octets.isEmpty then .error .notFound
  else .ok path

/-- The place that a path leads to. -/
def locate (disk : Disk) (limit : Option Nat) (path : Path) : Except IoError Location := do
  let path ← checked path
  disk.walk limit maxLinks (startOf disk.workingDirectory path) path.pieces

/-- The path of the place that a path leads to.  The spelling of the path itself may be of any
length, the paths of places on the way may not. -/
def realpath (disk : Disk) (path : Path) : Except IoError Path :=
  (disk.locate (some maxSpelling) path).map pathOf

/-- Whether a path leads to a regular file. -/
def isFile (disk : Disk) (path : Path) : Except IoError Bool :=
  (disk.locate none path).map fun location =>
    match disk.node? location with
    | some (.file _) => true
    | _ => false

/-- Refuse paths that cannot be opened, whatever they lead to. -/
def openable (path : Path) : Except IoError Path := do
  let path ← checked path
  if maxSpelling < path.octets.length then .error .nameTooLong else .ok path

/-- The content of the file that a path leads to. -/
def read (disk : Disk) (path : Path) : Except IoError (List UInt8) := do
  match disk.node? (← disk.locate none (← openable path)) with
  | some (.file content) => .ok content
  | _ => .error .isDirectory

/-- The answers of a disk. -/
def fileSystem (disk : Disk) : FileSystem where
  realpath := disk.realpath
  isFile := disk.isFile
  read := disk.read

/-- Follow names to the place where a file is to be written, which need not exist.  What ends in a
separator or in dots names a directory. -/
def destination (disk : Disk) (links : Nat) (here : Location) (names : List Name) :
    Except IoError Location :=
  match names with
  | [] => .error .isDirectory
  | name :: rest =>
      if stays name then destination disk links here rest
      else if name == Path.directoryAbove then destination disk links here.dropLast rest
      else if !rest.isEmpty && rest.all List.isEmpty then .error .isDirectory
      else
        match disk.node? (here ++ [name]) with
        | none =>
            if rest.isEmpty && name.length ≤ maxNameLength then .ok (here ++ [name])
            else .error (missing name)
        | some .directory => destination disk links (here ++ [name]) rest
        | some (.file _) =>
            if rest.isEmpty then .ok (here ++ [name]) else .error .notDirectory
        | some (.link target) =>
            match links with
            | 0 => .error .linkLoop
            | links + 1 => destination disk links (startOf here target) (target.pieces ++ rest)
termination_by (links, names.length)

/-- The place where a path leads for writing. -/
def locateForWriting (disk : Disk) (path : Path) : Except IoError Location := do
  let path ← openable path
  disk.destination maxLinks (startOf disk.workingDirectory path) path.pieces

/-- Write a file, creating it or replacing its content. -/
def write (disk : Disk) (path : Path) (content : List UInt8) : Except IoError Disk :=
  (disk.locateForWriting path).map fun location => disk.put location (.file content)

/-- Write a file on the disk at hand, which stays as it is when this is refused. -/
def overwrite (path : Path) (content : List UInt8) : StateM Disk (Except IoError Unit) := do
  match (← get).write path content with
  | .error cause => return .error cause
  | .ok written =>
      set written
      return .ok ()

/-- Follow names and create the directories that are missing. -/
def createAlong (disk : Disk) (links : Nat) (here : Location) (names : List Name) :
    Except IoError Disk :=
  match names with
  | [] => .ok disk
  | name :: rest =>
      if stays name then createAlong disk links here rest
      else if name == Path.directoryAbove then createAlong disk links here.dropLast rest
      else
        match disk.node? (here ++ [name]) with
        | none =>
            createAlong (disk.put (here ++ [name]) .directory) links (here ++ [name]) rest
        | some .directory => createAlong disk links (here ++ [name]) rest
        | some (.file _) => .error .notDirectory
        | some (.link target) =>
            match links with
            | 0 => .error .linkLoop
            | links + 1 => createAlong disk links (startOf here target) (target.pieces ++ rest)
termination_by (links, names.length)

/-- Create a directory and those above it, as far as they are missing. -/
def makeDirectories (disk : Disk) (path : Path) : Except IoError Disk :=
  disk.createAlong maxLinks (startOf disk.workingDirectory path) path.pieces

/-- Write a file in a directory that is created if it is missing. -/
def install (disk : Disk) (path : Path) (content : List UInt8) : Except IoError Disk := do
  let above := (Path.beforeLast? Path.separator path.octets).getD []
  let ready ← disk.makeDirectories ⟨above ++ [Path.separator]⟩
  ready.write path content

/-- The place of the last name of a path, which itself is not followed. -/
def entryOf (disk : Disk) (path : Path) : Except IoError Location := do
  let names := path.pieces.filter (!·.isEmpty)
  let above ←
    disk.walk none maxLinks (startOf disk.workingDirectory path) (names.dropLast ++ [[]])
  return above ++ names.getLast?.toList

/-- Make a symbolic link. -/
def link (disk : Disk) (path target : Path) : Except IoError Disk := do
  return disk.put (← disk.entryOf path) (.link target)

/-- Remove a file, a link or a directory with everything in it. -/
def remove (disk : Disk) (path : Path) : Except IoError Disk := do
  let location ← disk.entryOf path
  return { disk with entries := disk.entries.filter fun entry => !location.isPrefixOf entry.1 }

end Disk
end LuaCoverage
