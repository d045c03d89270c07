import LuaCoverage.Path

/-!
# Errors

What can go wrong while a profile is loaded or a source is analyzed, each with its message.
-/

namespace LuaCoverage

/-- Why a file system refused a request. -/
inductive IoError
  /-- Nothing has that name. -/
  | notFound
  /-- A name is used as a directory and is none. -/
  | notDirectory
  /-- A directory is used as a file. -/
  | isDirectory
  /-- A name has more octets than a name may have. -/
  | nameTooLong
  /-- Too many symbolic links stand in the way. -/
  | linkLoop
  /-- A path holds a NUL octet. -/
  | nulInPath
  /-- Any other refusal, in the words of the system. -/
  | other (description : String)
  deriving DecidableEq

/-- The text of a refusal. -/
def IoError.message : IoError → String
  | notFound => "No such file or directory (os error 2)"
  | notDirectory => "Not a directory (os error 20)"
  | isDirectory => "Is a directory (os error 21)"
  | nameTooLong => "File name too long (os error 36)"
  | linkLoop => "Too many levels of symbolic links (os error 40)"
  | nulInPath => "file name contained an unexpected NUL byte"
  | other description => description

/-- Why a profile cannot be loaded or a source cannot be analyzed. -/
inductive Error
  /-- A file cannot be read. -/
  | unreadable (cause : IoError)
  /-- The line segment of a tag is no line number. -/
  | badLine (tag : String)
  /-- The path of a tag cannot be followed. -/
  | unresolvedPath (tag : String) (path : Path) (cause : IoError)
  /-- The path of a tag leads nowhere. -/
  | missingSource (tag : String) (path : Path)
  /-- The path of a tag leads to something that is no regular file. -/
  | irregularSource (tag : String) (path : Path)
  /-- A grammar rejects the text of a source. -/
  | rejectedSource (path : Path) (reason : String)
  deriving DecidableEq

namespace Error

/-- The text of an error. -/
def message : Error → String
  | unreadable cause => "I/O error: " ++ cause.message
  | badLine tag => "Invalid line number in profile tag '" ++ tag ++ "'"
  | unresolvedPath tag path cause =>
      "Cannot resolve path for tag '" ++ tag ++ "' (" ++ path.text ++ "): " ++ cause.message
  | missingSource tag path => "Source file not found for tag '" ++ tag ++ "': " ++ path.text
  | irregularSource tag path =>
      "Source path for tag '" ++ tag ++ "' is not a regular file: " ++ path.text
  | rejectedSource path reason => "Failed to parse " ++ path.text ++ ": " ++ reason

/-- The messages from an error down to its first cause. -/
def chain (error : Error) : List String :=
  match error with
  | unreadable cause | unresolvedPath _ _ cause => [error.message, cause.message]
  | _ => [error.message]

end Error
end LuaCoverage
