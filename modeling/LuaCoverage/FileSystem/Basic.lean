import LuaCoverage.Error

/-!
# File systems as seen by the library

The library asks a file system three questions and changes nothing through them.  A source named by
a tag is looked up beneath a root; leading separators of either kind are dropped, so that they do
not lead away from it.
-/

namespace LuaCoverage

/-- The answers of a file system. -/
structure FileSystem where
  /-- The path without links, dots and empty names that leads to the same place. -/
  realpath : Path → Except IoError Path
  /-- Whether a path leads to a regular file. -/
  isFile : Path → Except IoError Bool
  /-- The content of a file. -/
  read : Path → Except IoError (List UInt8)

namespace FileSystem

/-- The spelling of a source without leading separators. -/
def stripSeparators (source : String) : String :=
  String.ofList (source.toList.dropWhile fun character => character == '/' || character == '\\')

/-- Where a source is looked up. -/
def lookupPath (root : Path) (source : String) : Path :=
  root.join (Path.ofText (stripSeparators source))

/-- The regular file that a source names beneath a root; the tag is only for messages. -/
def findSource (system : FileSystem) (root : Path) (source tag : String) : Except Error Path :=
  let joined := lookupPath root source
  match system.realpath joined with
  | .error .notFound => .error (.missingSource tag joined)
  | .error cause => .error (.unresolvedPath tag joined cause)
  | .ok path =>
      match system.isFile path with
      | .error cause => .error (.unresolvedPath tag path cause)
      | .ok false => .error (.irregularSource tag path)
      | .ok true => .ok path

end FileSystem
end LuaCoverage
