import LuaCoverage.Lua.Token

/-!
# Syntax trees of Lua sources

A tree has tokens at its ends and says of every node above them whether it is a statement.  What
else a node stands for matters only as far as calls are concerned, which can be statements but no
targets of assignments.
-/

namespace LuaCoverage
namespace Lua

/-- What a node stands for. -/
inductive Kind
  /-- A statement, unless it is final. -/
  | statement
  /-- A final statement, which returns values or leaves a loop. -/
  | final
  /-- A call. -/
  | call
  /-- The arguments of a call. -/
  | arguments
  /-- Anything else: a block, a function, an expression, or something inside one. -/
  | phrase
  deriving DecidableEq

/-- A syntax tree. -/
inductive Tree
  /-- A token. -/
  | token (token : Token)
  /-- A node with what it consists of, from left to right. -/
  | node (kind : Kind) (parts : List Tree)

namespace Tree

/-- The kind of a node. -/
def kind? : Tree → Option Kind
  | token _ => none
  | node kind _ => some kind

mutual

/-- The tokens of a tree, from left to right. -/
def tokens : Tree → List Token
  | token own => [own]
  | node _ parts => tokensOf parts

/-- The tokens of trees one after another. -/
def tokensOf : List Tree → List Token
  | [] => []
  | tree :: trees => tree.tokens ++ tokensOf trees

end

mutual

/-- The nodes of a tree, each before those inside it. -/
def nodes : Tree → List Tree
  | token _ => []
  | node kind parts => node kind parts :: nodesOf parts

/-- The nodes of trees one after another. -/
def nodesOf : List Tree → List Tree
  | [] => []
  | tree :: trees => tree.nodes ++ nodesOf trees

end

end Tree
end Lua
end LuaCoverage
