import LuaCoverage.Report.Basic

/-!
# Reports as JSON

Documents are printed with every member and item on a line of its own, indented by two blanks for
every level; empty objects and arrays are closed at once.  Strings escape quotes, backslashes and
control characters and nothing else.
-/

namespace LuaCoverage

mutual

/-- A JSON document, as far as reports need it. -/
inductive Json
  /-- A natural number. -/
  | number (value : Nat)
  /-- A string. -/
  | text (value : String)
  /-- An array. -/
  | array (items : JsonItems)
  /-- An object with its members in order. -/
  | object (members : JsonMembers)

/-- Items of an array. -/
inductive JsonItems
  /-- No further item. -/
  | nil
  /-- An item and those after it. -/
  | cons (first : Json) (rest : JsonItems)

/-- Members of an object. -/
inductive JsonMembers
  /-- No further member. -/
  | nil
  /-- A member and those after it. -/
  | cons (key : String) (value : Json) (rest : JsonMembers)

end

/-- Items from a list. -/
def JsonItems.ofList : List Json → JsonItems
  | [] => .nil
  | item :: items => .cons item (ofList items)

/-- Members from a list. -/
def JsonMembers.ofList : List (String × Json) → JsonMembers
  | [] => .nil
  | (key, value) :: members => .cons key value (ofList members)

namespace Json

/-- A hexadecimal digit in lower case. -/
def hexDigit (value : Nat) : Char := Nat.digitChar value

/-- A character inside a string. -/
def escape (character : Char) : List Char :=
  match character with
  | '"' => ['\\', '"']
  | '\\' => ['\\', '\\']
  | '\x08' => ['\\', 'b']
  | '\t' => ['\\', 't']
  | '\n' => ['\\', 'n']
  | '\x0c' => ['\\', 'f']
  | '\r' => ['\\', 'r']
  | other =>
      if other.toNat < 0x20 then
        ['\\', 'u', '0', '0', hexDigit (other.toNat / 16), hexDigit (other.toNat % 16)]
      else [other]

/-- A string with its quotes. -/
def quoted (text : String) : String :=
  String.ofList ('"' :: (text.toList.flatMap escape ++ ['"']))

/-- The start of a line at some level. -/
def newline (level : Nat) : String :=
  "\n".pushn ' ' (2 * level)

mutual

/-- A document that starts at some level. -/
def print (level : Nat) : Json → String
  | .number value => value.repr
  | .text value => quoted value
  | .array .nil => "[]"
  | .array (.cons first rest) =>
      "[" ++ newline (level + 1) ++ first.print (level + 1) ++ printItems (level + 1) rest ++
        newline level ++ "]"
  | .object .nil => "\x7b\x7d"
  | .object (.cons key value rest) =>
      "\x7b" ++ newline (level + 1) ++ quoted key ++ ": " ++ value.print (level + 1) ++
        printMembers (level + 1) rest ++ newline level ++ "\x7d"

/-- Items after the first. -/
def printItems (level : Nat) : JsonItems → String
  | .nil => ""
  | .cons item rest => "," ++ newline level ++ item.print level ++ printItems level rest

/-- Members after the first. -/
def printMembers (level : Nat) : JsonMembers → String
  | .nil => ""
  | .cons key value rest =>
      "," ++ newline level ++ quoted key ++ ": " ++ value.print level ++ printMembers level rest

end

end Json

/-- Counts by line; lines are keys and therefore text. -/
def LineCounts.json (lines : LineCounts) : Json :=
  .object (.ofList (lines.toList.map fun (line, count) => (line.repr, .number count.toNat)))

/-- An analyzed file has figures, a failed one its reason. -/
def Outcome.json (outcome : Outcome) : Json :=
  let identity :=
    [("name", Json.text outcome.file.name), ("path", .text outcome.file.path.text)]
  let lines := ("lines", LineCounts.json outcome.file.lines)
  match outcome with
  | .analyzed file =>
      .object (.ofList (identity ++
        [("covered", .number file.figures.covered.toNat),
          ("executable", .number file.figures.executable.toNat),
          ("percentage", .number file.figures.percentage.toNat), lines]))
  | .failed _ reason => .object (.ofList (identity ++ [lines, ("error", .text reason)]))

/-- The document of a report. -/
def Report.document (report : Report) : Json :=
  .object (.ofList
    [("total_points", .number report.totalPoints), ("total_files", .number report.totalFiles),
      ("files", .array (.ofList (report.outcomes.map Outcome.json)))])

/-- A report as JSON. -/
def Report.json (report : Report) : String :=
  report.document.print 0 ++ "\n"

end LuaCoverage
