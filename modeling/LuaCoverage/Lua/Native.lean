import LuaCoverage.Lua.Grammar
import LuaCoverage.Lua.Lexer
import LuaCoverage.Lua.Parser

/-!
# The syntax library of the program

Sources are cut into tokens and parsed by rules.  What is wrong with a source is not said.
-/

namespace LuaCoverage
namespace Lua

/-- The tree of a source, if it is one. -/
def tree? (source : String) : Option Tree := do
  (Parser.parse (← Lexer.tokens source.toList)).toOption

/-- The library. -/
def Toolkit.native : Toolkit where
  parse source :=
    match tree? source with
    | some tree => .ok tree
    | none => .error ["<syntax error>"]
  startLine? tree := tree.tokens.head?.map (·.line)
  visits := Tree.nodes

end Lua
end LuaCoverage
